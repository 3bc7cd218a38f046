import ArithTemplate.Pattern.Reading
import ArithTemplate.Proofs.Numeral

set_option autoImplicit false

namespace ArithTemplate

theorem upper_of_lower (c : Char) (lower : c.val ≥ 'a'.val ∧ c.val ≤ 'z'.val) :
    c.toUpper.isUpper = true := by
  -- The distance between the cases is taken modulo the size of a word.
  have shift : ('A'.val - 'a'.val).toNat = 2 ^ 32 - 32 := by decide
  have low : 97 ≤ c.val.toNat := UInt32.le_iff_toNat_le.1 lower.1
  have high : c.val.toNat ≤ 122 := UInt32.le_iff_toNat_le.1 lower.2
  have moved : (c.val + ('A'.val - 'a'.val)).toNat = c.val.toNat - 32 := by
    rw [UInt32.toNat_add, shift]
    omega
  delta Char.toUpper
  rw [dif_pos lower]
  delta Char.isUpper
  simp only [decide_eq_true_eq, ge_iff_le, UInt32.le_iff_toNat_le, moved]
  exact ⟨show 65 ≤ c.val.toNat - 32 by omega, show c.val.toNat - 32 ≤ 90 by omega⟩

theorem upper_alphanum (c : Char) (alphanum : c.isAlphanum = true) :
    c.toUpper.isAlphanum = true := by
  by_cases lower : c.val ≥ 'a'.val ∧ c.val ≤ 'z'.val
  · change (c.toUpper.isUpper || c.toUpper.isLower || c.toUpper.isDigit) = true
    rw [upper_of_lower c lower, Bool.true_or, Bool.true_or]
  · delta Char.toUpper
    rwa [dif_neg lower]

-- What a directive may write besides digits and letters.
def directiveMarks : List Char := ['.', '+', '-', ' ']

def OfDirective (s : Text) : Prop := ∀ c ∈ s, c.isAlphanum = true ∨ c ∈ directiveMarks

theorem of_directive_append (s t : Text) (left : OfDirective s) (right : OfDirective t) :
    OfDirective (s ++ t) := List.forall_mem_append.2 ⟨left, right⟩

theorem of_directive_replicate (count : Nat) (c : Char) (mark : OfDirective [c]) :
    OfDirective (List.replicate count c) := by
  intro d member
  rw [List.eq_of_mem_replicate member]
  exact mark c List.mem_cons_self

theorem of_directive_digits (s : Text) (digits : ∀ c ∈ s, c.isDigit = true) : OfDirective s := by
  intro c member
  left
  rw [Char.isAlphanum, digits c member, Bool.or_true]

theorem of_directive_upper (s : Text) (plain : OfDirective s) :
    OfDirective (s.map Char.toUpper) := by
  intro c member
  obtain ⟨d, inside, rfl⟩ := List.mem_map.1 member
  rcases plain d inside with alphanum | mark
  · exact .inl (upper_alphanum d alphanum)
  · right
    simp only [directiveMarks, List.mem_cons, List.not_mem_nil, or_false] at mark
    rcases mark with rfl | rfl | rfl | rfl <;> decide

theorem of_directive_nil : OfDirective [] := List.forall_mem_nil _

theorem of_directive_mark (c : Char) (mark : c ∈ directiveMarks) : OfDirective [c] :=
  List.forall_mem_singleton.2 (.inr mark)

theorem of_directive_ite (p : Prop) [Decidable p] (s t : Text) (left : OfDirective s)
    (right : OfDirective t) : OfDirective (if p then s else t) := by
  by_cases holds : p
  · rwa [if_pos holds]
  · rwa [if_neg holds]

namespace Directive

theorem fixed_characters (places n : Nat) : OfDirective (Decimal.fixed places n) := by
  have digits := of_directive_digits _ (Numeral.padded_digits (places + 1) n)
  apply of_directive_ite
  · exact fun c member => digits c (List.mem_of_mem_take member)
  · apply of_directive_append
    · exact fun c member => digits c (List.mem_of_mem_take member)
    · exact List.forall_mem_cons.2 ⟨by decide, fun c member => digits c (List.mem_of_mem_drop member)⟩

theorem stripped_characters (s : Text) (whole : OfDirective s) : OfDirective (stripFraction s) := by
  apply of_directive_ite
  · intro c member
    have kept := List.mem_reverse.1 member
    have digits := (List.dropWhile_suffix _).subset ((List.dropWhile_suffix _).subset kept)
    exact whole c (List.mem_reverse.1 digits)
  · exact whole

theorem exponent_characters (exponent : Int) : OfDirective (exponentText exponent) := by
  have sign : ∀ negative : Bool, OfDirective ['e', if negative then '-' else '+'] := by
    intro negative
    cases negative with
    | true => exact List.forall_mem_cons.2 ⟨by decide, List.forall_mem_singleton.2 (by decide)⟩
    | false => exact List.forall_mem_cons.2 ⟨by decide, List.forall_mem_singleton.2 (by decide)⟩
  have digits := of_directive_digits _ (Numeral.padded_digits 2 exponent.natAbs)
  have whole := of_directive_append _ _ (sign (decide (exponent < 0))) digits
  simpa [exponentText] using whole

theorem general_characters (precision : Nat) (alternate : Bool) (code : Nat) :
    OfDirective (generalText precision alternate code) := by
  have stripped (s : Text) (whole : OfDirective s) :
      OfDirective ((if alternate then id else stripFraction) s) := by
    cases alternate with
    | true => exact whole
    | false => exact stripped_characters s whole
  apply of_directive_ite
  · exact stripped _ (fixed_characters _ _)
  · exact of_directive_append _ _ (stripped _ (fixed_characters _ _)) (exponent_characters _)

theorem body_characters (d : Directive) (x : Binary64) : OfDirective (d.body x) := by
  have letters (s : Text) (all : s.all Char.isAlphanum = true) : OfDirective s :=
    fun c member => .inl (List.all_eq_true.1 all c member)
  have cased (s : Text) (plain : OfDirective s) :
      OfDirective (if d.upper then s.map Char.toUpper else s) :=
    of_directive_ite _ _ _ (of_directive_upper s plain) plain
  have point : OfDirective (if d.alternate && d.precision == 0 then ['.'] else []) :=
    of_directive_ite _ _ _ (of_directive_mark '.' (by decide)) of_directive_nil
  apply cased
  cases x with
  | nan => exact letters ['n', 'a', 'n'] (by decide)
  | infinite negative => exact letters ['i', 'n', 'f'] (by decide)
  | finite negative code =>
      cases d.conversion with
      | fixed =>
          exact of_directive_append _ _ (fixed_characters _ _) point
      | scientific =>
          exact of_directive_append _ _ (of_directive_append _ _ (fixed_characters _ _) point)
            (exponent_characters _)
      | general =>
          exact general_characters d.precision d.alternate code

theorem sign_characters (d : Directive) (x : Binary64) : OfDirective (d.sign x) := by
  apply of_directive_ite
  · exact of_directive_mark '-' (by decide)
  · apply of_directive_ite
    · exact of_directive_mark '+' (by decide)
    · exact of_directive_ite _ _ _ (of_directive_mark ' ' (by decide)) of_directive_nil

theorem render_characters (d : Directive) (x : Binary64) : OfDirective (d.render x) := by
  have sign := sign_characters d x
  have body := body_characters d x
  have blanks (count : Nat) : OfDirective (List.replicate count ' ') :=
    of_directive_replicate count ' ' (of_directive_mark ' ' (by decide))
  have zeros (count : Nat) : OfDirective (List.replicate count '0') :=
    of_directive_replicate count '0' (of_directive_digits ['0'] (List.forall_mem_singleton.2 rfl))
  apply of_directive_ite
  · exact of_directive_append _ _ (of_directive_append _ _ sign body) (blanks _)
  · apply of_directive_ite
    · exact of_directive_append _ _ (of_directive_append _ _ sign (zeros _)) body
    · exact of_directive_append _ _ (of_directive_append _ _ (blanks _) sign) body

end Directive

namespace Pattern

theorem literal_run_characters (s : Text) :
    (∀ c ∈ (literalRun s).1, c ∈ s) ∧ ∀ c ∈ (literalRun s).2.2, c ∈ s := by
  induction s using literalRun.induct with
  | case1 => exact ⟨nofun, nofun⟩
  | case2 rest text size after run hypothesis =>
      rw [run] at hypothesis
      rw [literalRun, run]
      refine ⟨List.forall_mem_cons.2 ⟨List.mem_cons_self, fun c member => ?_⟩, fun c member => ?_⟩
      · exact List.mem_cons_of_mem _ (List.mem_cons_of_mem _ (hypothesis.1 c member))
      · exact List.mem_cons_of_mem _ (List.mem_cons_of_mem _ (hypothesis.2 c member))
  | case3 rest single =>
      rw [literalRun, if_pos rfl]
      · exact ⟨nofun, fun _ member => member⟩
      · exact single
  | case4 c rest single other text size after run hypothesis =>
      rw [run] at hypothesis
      rw [literalRun, if_neg other, run]
      · refine ⟨List.forall_mem_cons.2 ⟨List.mem_cons_self, fun d member => ?_⟩, fun d member => ?_⟩
        · exact List.mem_cons_of_mem c (hypothesis.1 d member)
        · exact List.mem_cons_of_mem c (hypothesis.2 d member)
      · exact single

theorem field_span_suffix (s : Text) : (fieldSpan s).2 <:+ s := by
  unfold fieldSpan
  split
  · exact List.suffix_cons _ _
  · exact List.dropWhile_suffix _

theorem precision_span_suffix (s : Text) : (precisionSpan s).2 <:+ s := by
  unfold precisionSpan
  split
  · exact (field_span_suffix _).trans (List.suffix_cons _ _)
  · exact List.suffix_refl _

theorem letter_span_suffix (s : Text) : (letterSpan s).2 <:+ s := by
  cases s with
  | nil => exact List.suffix_refl _
  | cons c rest =>
      rw [letterSpan]
      split
      · exact List.suffix_refl _
      · exact List.suffix_cons c rest

theorem scan_suffix (s : Text) : (Parts.scan s).2 <:+ s := by
  have flags := List.dropWhile_suffix (l := s) isFlag
  have width := field_span_suffix (s.dropWhile isFlag)
  have precision := precision_span_suffix (fieldSpan (s.dropWhile isFlag)).2
  have modifier := List.dropWhile_suffix
    (l := (precisionSpan (fieldSpan (s.dropWhile isFlag)).2).2) isLengthLetter
  have letter := letter_span_suffix
    ((precisionSpan (fieldSpan (s.dropWhile isFlag)).2).2.dropWhile isLengthLetter)
  exact letter.trans (modifier.trans (precision.trans (width.trans flags)))

theorem read_characters (s : Text) (p : Pattern) (reads : read s = .ok p) :
    (∀ c ∈ p.leading, c ∈ s) ∧ ∀ c ∈ p.trailing, c ∈ s := by
  obtain ⟨front, behind⟩ := literal_run_characters s
  unfold read at reads
  generalize literalRun s = run at front behind reads
  obtain ⟨leading, start, rest⟩ := run
  cases rest with
  | nil => cases reads
  | cons mark afterPercent =>
      have scanned := scan_suffix afterPercent
      dsimp only at reads
      generalize Parts.scan afterPercent = scan at scanned reads
      obtain ⟨parts, afterParts⟩ := scan
      obtain ⟨inside, _⟩ := literal_run_characters afterParts
      dsimp only at reads
      generalize literalRun afterParts = run at inside reads
      obtain ⟨trailing, size, surplus⟩ := run
      cases made : parts.directive start with
      | error misfit =>
          rw [made] at reads
          cases reads
      | ok directive =>
          rw [made] at reads
          cases surplus with
          | cons extra more => cases reads
          | nil =>
              cases reads
              refine ⟨front, fun c member => ?_⟩
              exact behind c (List.mem_cons_of_mem mark (scanned.subset (inside c member)))

theorem render_characters (s : Text) (p : Pattern) (reads : read s = .ok p) (x : Binary64) :
    ∀ c ∈ p.render x, c ∈ s ∨ c.isAlphanum = true ∨ c ∈ directiveMarks := by
  obtain ⟨leading, trailing⟩ := read_characters s p reads
  refine List.forall_mem_append.2 ⟨List.forall_mem_append.2 ⟨?_, ?_⟩, ?_⟩
  · exact fun c member => .inl (leading c member)
  · exact fun c member => .inr (p.directive.render_characters x c member)
  · exact fun c member => .inl (trailing c member)

end Pattern
end ArithTemplate
