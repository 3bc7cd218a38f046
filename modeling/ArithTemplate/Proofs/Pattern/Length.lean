import ArithTemplate.Proofs.Pattern.Characters
import ArithTemplate.Proofs.Pattern.Rounded
import ArithTemplate.Proofs.Pattern.Width
import ArithTemplate.Proofs.Rounded.Overflow

set_option autoImplicit false

open ArithTemplate.Text (bytes bytes_append)

namespace ArithTemplate

namespace Text

theorem length_le_bytes (s : Text) : s.length ≤ bytes s := by
  induction s with
  | nil => exact Nat.le_refl 0
  | cons c rest hypothesis =>
      have width := Char.utf8Size_pos c
      rw [List.length_cons, bytes]
      omega

theorem bytes_of_single (s : Text) (single : ∀ c ∈ s, c.utf8Size = 1) : bytes s = s.length := by
  induction s with
  | nil => rfl
  | cons c rest hypothesis =>
      obtain ⟨first, later⟩ := List.forall_mem_cons.1 single
      rw [List.length_cons, bytes, first, hypothesis later, Nat.add_comm]

end Text

theorem alphanum_single (c : Char) (alphanum : c.isAlphanum = true) : c.utf8Size = 1 := by
  delta Char.isAlphanum Char.isAlpha Char.isUpper Char.isLower Char.isDigit at alphanum
  simp only [Bool.or_eq_true, decide_eq_true_eq, Bool.and_eq_true, ge_iff_le,
    UInt32.le_iff_toNat_le] at alphanum
  change ((65 ≤ c.val.toNat ∧ c.val.toNat ≤ 90) ∨ (97 ≤ c.val.toNat ∧ c.val.toNat ≤ 122)) ∨
    (48 ≤ c.val.toNat ∧ c.val.toNat ≤ 57) at alphanum
  refine Char.utf8Size_eq_one_iff.2 (UInt32.le_iff_toNat_le.2 ?_)
  change c.val.toNat ≤ 127
  omega

theorem of_directive_bytes (s : Text) (plain : OfDirective s) : bytes s = s.length := by
  refine Text.bytes_of_single s fun c member => ?_
  rcases plain c member with alphanum | mark
  · exact alphanum_single c alphanum
  · simp only [directiveMarks, List.mem_cons, List.not_mem_nil, or_false] at mark
    rcases mark with rfl | rfl | rfl | rfl <;> rfl

namespace Binary64

-- A finite number has at most so many digits in front of the point.
def wholeDigits : ℕ := 309

theorem magnitude_limited (code : Fin 0x7FF0000000000000) :
    ∃ limit : ℕ, magnitude code ≤ limit ∧ limit < 10 ^ wholeDigits := by
  refine ⟨2 ^ 1024, ?_, by decide +kernel⟩
  have below := units_below_middle code
  have room : (2 ^ 1024 - 2 ^ 970 : ℚ) ≤ 2 ^ 1024 := sub_le_self _ top_power_pos.le
  rw [Nat.cast_pow, Nat.cast_ofNat, magnitude_units, div_le_iff₀ units_per_one_pos]
  exact below.le.trans (mul_le_mul_of_nonneg_right room units_per_one_pos.le)

theorem scaled_below (places : ℕ) (code : Fin 0x7FF0000000000000) :
    scaledBy places code < 10 ^ (wholeDigits + places) := by
  obtain ⟨limit, finite, digits⟩ := magnitude_limited code
  have scaled : magnitude code * 10 ^ places ≤ (limit * 10 ^ places : ℕ) := by
    push_cast
    exact mul_le_mul_of_nonneg_right finite (by positivity)
  calc
    scaledBy places code ≤ limit * 10 ^ places := (scaled_nearest places code).at_most scaled
    _ < 10 ^ wholeDigits * 10 ^ places := Nat.mul_lt_mul_of_pos_right digits (Nat.pow_pos (by decide))
    _ = 10 ^ (wholeDigits + places) := (Nat.pow_add 10 wholeDigits places).symm

end Binary64

namespace Directive

theorem fixed_length (places n : ℕ) : (Decimal.fixed places n).length =
    max (places + 1) (Numeral.ofNat n).length + if places = 0 then 0 else 1 := by
  have digits := Numeral.padded_length (places + 1) n
  rw [Decimal.fixed]
  by_cases whole : places = 0
  · simp only [if_pos whole, List.length_take]
    omega
  · simp only [if_neg whole, List.length_append, List.length_cons, List.length_take, List.length_drop]
    omega

theorem strip_length (s : Text) : (stripFraction s).length ≤ s.length := by
  rw [stripFraction]
  split
  · have point := (List.dropWhile_suffix (l := s.reverse.dropWhile (· == '0')) (· == '.')).length_le
    have zeros := (List.dropWhile_suffix (l := s.reverse) (· == '0')).length_le
    rw [List.length_reverse] at zeros ⊢
    exact point.trans zeros
  · exact Nat.le_refl _

theorem exponent_length (exponent : ℤ) (small : exponent.natAbs < 10 ^ 4) :
    (exponentText exponent).length ≤ 6 := by
  have digits := (Numeral.length_of_nat_le_iff exponent.natAbs 4 (by decide)).2 small
  have padded := Numeral.padded_length 2 exponent.natAbs
  simp only [exponentText, List.length_cons]
  omega

theorem point_length (shown : Bool) : (if shown then ['.'] else ([] : Text)).length ≤ 1 := by
  cases shown <;> decide

section Conversions

variable (precision : ℕ) (alternate : Bool) (code : Fin 0x7FF0000000000000)

theorem mantissa_length : (mantissa precision code).1.length ≤ precision + 2 := by
  have below := Binary64.significant_below (precision + 1) code (Nat.succ_pos _)
  have digits := (Numeral.length_of_nat_le_iff _ _ (Nat.succ_pos _)).2 below
  have length : (mantissa precision code).1.length = _ := fixed_length precision _
  rw [length]
  split <;> omega

theorem marked_length : (exponentText (mantissa precision code).2).length ≤ 6 :=
  exponent_length _ (Nat.lt_of_le_of_lt (mantissa_exponent precision code code.isLt) (by decide))

theorem fixed_text_length : (fixedText precision alternate code).length ≤ precision + 310 := by
  have whole : Binary64.wholeDigits = 309 := rfl
  have digits := (Numeral.length_of_nat_le_iff _ _ (by omega)).2 (Binary64.scaled_below precision code)
  have length := fixed_length precision (Binary64.scaledBy precision code)
  rw [fixedText, List.length_append, length]
  by_cases bare : precision = 0
  · have point := point_length (alternate && precision == 0)
    rw [if_pos bare]
    omega
  · have none_ : (alternate && precision == 0) = false := by simp [bare]
    rw [if_neg bare, none_]
    simp only [Bool.false_eq_true, if_false, List.length_nil]
    omega

theorem scientific_text_length :
    (scientificText precision alternate code).length ≤ precision + 9 := by
  have digits := mantissa_length precision code
  have marked := marked_length precision code
  have point := point_length (alternate && precision == 0)
  simp only [scientificText, List.length_append]
  omega

-- Positional digits of the general conversion are those that were counted, with up to four zeros in
-- front of them.
theorem general_digits (places : ℕ)
    (place : (Binary64.significant (precision + 1) code).exponent = -places) :
    Binary64.scaledBy places code < 10 ^ (precision + 1) := by
  by_cases zero : code.val = 0
  · rw [zero, scaled_nothing]
    exact Nat.pow_pos (by decide)
  · rw [second_rounding (precision + 1) code zero (Nat.succ_pos _) places place]
    exact Binary64.significant_below (precision + 1) code (Nat.succ_pos _)

theorem general_text_length : (generalText precision alternate code).length ≤ precision + 9 := by
  have stripped (s : Text) : ((if alternate then id else stripFraction) s).length ≤ s.length := by
    cases alternate with
    | true => exact Nat.le_refl _
    | false => exact strip_length s
  obtain ⟨last, count⟩ : ∃ last, max precision 1 = last + 1 := ⟨max precision 1 - 1, by omega⟩
  have exponent : (mantissa last code).2 =
      (Binary64.significant (last + 1) code).exponent + last := rfl
  simp only [generalText, count, Nat.add_sub_cancel]
  split
  · rename_i positional
    have place : (Binary64.significant (last + 1) code).exponent =
        -((((last + 1 : ℕ) : ℤ) - 1 - (mantissa last code).2).toNat : ℕ) := by omega
    have few : (((last + 1 : ℕ) : ℤ) - 1 - (mantissa last code).2).toNat ≤ last + 4 := by omega
    have below := general_digits last code _ place
    generalize (((last + 1 : ℕ) : ℤ) - 1 - (mantissa last code).2).toNat = places at few below ⊢
    have digits := (Numeral.length_of_nat_le_iff _ _ (Nat.succ_pos _)).2 below
    have length := fixed_length places (Binary64.scaledBy places code)
    have kept := stripped (Decimal.fixed places (Binary64.scaledBy places code))
    split at length <;> omega
  · have kept := stripped (mantissa last code).1
    have digits := mantissa_length last code
    have marked := marked_length last code
    rw [List.length_append]
    omega

end Conversions

theorem body_length (d : Directive) (x : Binary64) : (d.body x).length ≤ d.precision + 310 := by
  have cased (s : Text) (short : s.length ≤ d.precision + 310) :
      (if d.upper then s.map Char.toUpper else s).length ≤ d.precision + 310 := by
    split
    · rwa [List.length_map]
    · exact short
  apply cased
  cases x with
  | nan => exact Nat.le_trans (by decide : 3 ≤ 310) (Nat.le_add_left _ _)
  | infinite negative => exact Nat.le_trans (by decide : 3 ≤ 310) (Nat.le_add_left _ _)
  | finite negative code =>
      cases d.conversion with
      | fixed => exact fixed_text_length d.precision d.alternate code
      | scientific => exact (scientific_text_length d.precision d.alternate code).trans (by omega)
      | general => exact (general_text_length d.precision d.alternate code).trans (by omega)

theorem sign_length (d : Directive) (x : Binary64) : (d.sign x).length ≤ 1 := by
  rw [sign]
  split
  · exact Nat.le_refl 1
  · split
    · exact Nat.le_refl 1
    · split <;> decide

theorem render_bytes (d : Directive) (x : Binary64) :
    bytes (d.render x) ≤ max d.width (d.precision + 311) := by
  obtain ⟨_, _, _, length⟩ := d.render_padded x
  have body := d.body_length x
  have sign := d.sign_length x
  rw [of_directive_bytes _ (d.render_characters x), length, List.length_append]
  omega

end Directive

namespace Written

theorem copied_bytes (pieces : List Piece) : bytes (copied pieces) ≤ bytes (spelled pieces) := by
  induction pieces with
  | nil => exact Nat.le_refl 0
  | cons piece pieces hypothesis =>
      have first : piece.char.utf8Size ≤ bytes piece.text := by
        cases piece with
        | plain c other => exact Nat.le_add_right _ _
        | percent => decide
      have spelling : bytes (spelled (piece :: pieces)) = bytes piece.text + bytes (spelled pieces) :=
        bytes_append _ _
      rw [spelling]
      exact Nat.add_le_add first hypothesis

namespace Specification

variable (d : Specification)

theorem width_limited : d.directive.width ≤ 512 := by
  change Numeral.value (widthText d.width) ≤ 512
  cases d.width with
  | none => decide
  | some width => exact width.limited

-- A precision of three digits takes four characters of the directive.
theorem precision_spelled : d.directive.precision + 311 ≤ d.text.length + 817 := by
  have spelled : d.text.length = d.flags.length + (widthText d.width).length +
      (pointText d.parts.precision).length + (modifierText d.modifier).length + 2 := by
    simp [text, partsText, parts]
    omega
  cases written : d.precision with
  | none =>
      have six : d.directive.precision = 6 := by simp [directive, written]
      omega
  | some precision =>
      have value : d.directive.precision = Numeral.value precision.text := by
        simp [directive, written]
      have point : (pointText d.parts.precision).length = precision.text.length + 1 := by
        simp [parts, written, pointText]
      have below := Numeral.value_below precision.text precision.digits
      have limited := precision.limited
      by_cases short : precision.text.length ≤ 2
      · have few : 10 ^ precision.text.length ≤ 10 ^ 2 := Nat.pow_le_pow_right (by decide) short
        omega
      · omega

end Specification
end Written

-- Literal text never grows, and what a directive writes is bounded by its limits. The most is made of
-- a precision of 512, which takes six characters, at the lowest number, with its sign, 309 digits and
-- a point.
theorem render_bounded_by_text :
    (∀ (s : Text) (pattern : Pattern), Pattern.read s = .ok pattern →
      ∀ x : Binary64, bytes (pattern.render x) ≤ bytes s + 817) ∧
    let most : Fin 0x7FF0000000000000 := ⟨Binary64.largestCode, by decide⟩
    (∀ code : Fin 0x7FF0000000000000, Binary64.magnitude code ≤ Binary64.magnitude most) ∧
      ∃ pattern, Pattern.read ['%', '.', '5', '1', '2', 'f'] = .ok pattern ∧
        bytes (pattern.render (.finite true most)) = bytes ['%', '.', '5', '1', '2', 'f'] + 817 := by
  refine ⟨fun s pattern reads x => ?_, fun code => ?_, ?_⟩
  · obtain ⟨f, rfl, rfl⟩ := Written.read_format s pattern reads
    have front := Written.copied_bytes f.front
    have back := Written.copied_bytes f.back
    have number := f.specification.directive.render_bytes x
    have width := f.specification.width_limited
    have precision := f.specification.precision_spelled
    have directive := Text.length_le_bytes f.specification.text
    simp only [Pattern.render, Written.Format.text, Written.Format.pattern, bytes_append]
    omega
  · have order := Binary64.units_increase.monotone (Nat.le_of_lt_succ code.isLt)
    rw [Binary64.magnitude_units, Binary64.magnitude_units]
    exact div_le_div_of_nonneg_right (Nat.cast_le.2 order) Binary64.units_per_one_pos.le
  · refine ⟨⟨[], Directive.bare .fixed 512, []⟩, Directive.bare_reads .fixed 512 (by decide), ?_⟩
    decide +kernel

-- A doubled percent sign is written once, so the text may come out shorter than its pattern.
theorem percent_bounded :
    ∃ pattern, Pattern.read ['%', '%', '%', '5', '.', '1', 'f'] = .ok pattern ∧
      pattern.render (.finite false 0x4023000000000000) = ['%', ' ', ' ', '9', '.', '5'] ∧
      bytes (pattern.render (.finite false 0x4023000000000000)) ≤
        bytes ['%', '%', '%', '5', '.', '1', 'f'] + 817 := by
  obtain ⟨bounded, _⟩ := render_bounded_by_text
  let directive : Directive := ⟨false, false, false, false, false, 5, 1, .fixed, false⟩
  have reads : Pattern.read ['%', '%', '%', '5', '.', '1', 'f'] = .ok ⟨['%'], directive, []⟩ := rfl
  exact ⟨_, reads, by decide +kernel, bounded _ _ reads _⟩

end ArithTemplate
