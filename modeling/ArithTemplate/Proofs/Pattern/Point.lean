import ArithTemplate.Proofs.Pattern.Characters
import ArithTemplate.Proofs.Written.Format

set_option autoImplicit false

namespace ArithTemplate

theorem digits_no_point (s : Text) (digits : ∀ c ∈ s, c.isDigit = true) : s.count '.' = 0 := by
  apply List.count_eq_zero.2
  intro member
  exact absurd (digits '.' member) (by decide)

theorem upper_point_iff (c : Char) : c.toUpper = '.' ↔ c = '.' := by
  by_cases lower : c.val ≥ 'a'.val ∧ c.val ≤ 'z'.val
  · have upper := upper_of_lower c lower
    constructor
    · intro point
      rw [point] at upper
      exact absurd upper (by decide)
    · rintro rfl
      exact absurd lower (by decide)
  · delta Char.toUpper
    rw [dif_neg lower]

theorem upper_keeps_points (s : Text) : (s.map Char.toUpper).count '.' = s.count '.' := by
  induction s with
  | nil => rfl
  | cons c rest hypothesis =>
      by_cases point : c = '.'
      · simp [hypothesis, point]
      · simp [hypothesis, point, upper_point_iff]

namespace Directive

theorem fixed_point (places n : Nat) :
    (Decimal.fixed places n).count '.' = if places = 0 then 0 else 1 := by
  have digits := Numeral.padded_digits (places + 1) n
  let front := (Numeral.padded (places + 1) n).length - places
  have whole := digits_no_point ((Numeral.padded (places + 1) n).take front) fun c member =>
    digits c (List.mem_of_mem_take member)
  have fraction := digits_no_point ((Numeral.padded (places + 1) n).drop front) fun c member =>
    digits c (List.mem_of_mem_drop member)
  rw [Decimal.fixed]
  by_cases none_ : places = 0
  · simpa only [if_pos none_] using whole
  · simp only [if_neg none_, List.count_append, List.count_cons]
    simp [front, whole, fraction]

theorem exponent_no_point (exponent : Int) : (exponentText exponent).count '.' = 0 := by
  have digits := digits_no_point _ (Numeral.padded_digits 2 exponent.natAbs)
  by_cases negative : exponent < 0
  · simp [exponentText, negative, digits]
  · simp [exponentText, negative, digits]

theorem fixed_keeps_point (precision code : Nat) : (fixedText precision true code).count '.' = 1 := by
  by_cases none_ : precision = 0
  · simp [fixedText, fixed_point, none_]
  · simp [fixedText, fixed_point, none_]

theorem scientific_keeps_point (precision code : Nat) :
    (scientificText precision true code).count '.' = 1 := by
  by_cases none_ : precision = 0
  · simp [scientificText, mantissa, fixed_point, exponent_no_point, none_]
  · simp [scientificText, mantissa, fixed_point, exponent_no_point, none_]

-- The general conversion has no digit to put behind the point where its digits end with the ones,
-- or where there is only one digit in front of an exponent.
def EndsWhole (precision code : Nat) : Prop :=
  let count := max precision 1
  let exponent := (mantissa (count - 1) code).2
  exponent = count - 1 ∨ count = 1 ∧ ¬ (-4 ≤ exponent ∧ exponent < count)

theorem general_text (precision code : Nat) :
    generalText precision true code =
      let count := max precision 1
      let rounded := mantissa (count - 1) code
      let decimals := ((count : Int) - 1 - rounded.2).toNat
      if -4 ≤ rounded.2 ∧ rounded.2 < count then
        Decimal.fixed decimals (Binary64.scaledBy decimals code)
      else rounded.1 ++ exponentText rounded.2 := rfl

theorem general_point (precision code : Nat) :
    (EndsWhole precision code → (generalText precision true code).count '.' = 0) ∧
      (¬ EndsWhole precision code → (generalText precision true code).count '.' = 1) := by
  have some_ : 1 ≤ max precision 1 := Nat.le_max_right precision 1
  have digits : (mantissa (max precision 1 - 1) code).1.count '.' =
      if max precision 1 - 1 = 0 then 0 else 1 := fixed_point _ _
  rw [general_text, EndsWhole]
  generalize max precision 1 = count at some_ digits ⊢
  dsimp only
  generalize mantissa (count - 1) code = rounded at digits ⊢
  by_cases positional : -4 ≤ rounded.2 ∧ rounded.2 < count
  · rw [if_pos positional, fixed_point]
    constructor
    · intro whole
      exact if_pos (by omega)
    · intro more
      exact if_neg (by omega)
  · rw [if_neg positional, List.count_append, digits, exponent_no_point]
    constructor
    · intro whole
      simp [show count - 1 = 0 by omega]
    · intro more
      simp [show count - 1 ≠ 0 by omega]

theorem sign_no_point (d : Directive) (x : Binary64) : (d.sign x).count '.' = 0 := by
  rw [sign]
  by_cases negative : x.isNegative = true
  · simp [negative]
  · by_cases plus : d.plus = true
    · simp [negative, plus]
    · by_cases space : d.space = true
      · simp [negative, plus, space]
      · simp [negative, plus, space]

-- What fills a field up to its width has no point in it.
theorem render_point (d : Directive) (x : Binary64) :
    (d.render x).count '.' = (d.body x).count '.' := by
  have blanks (missing : Nat) : (List.replicate missing ' ').count '.' = 0 := by
    simp [List.count_replicate]
  have zeros (missing : Nat) : (List.replicate missing '0').count '.' = 0 := by
    simp [List.count_replicate]
  rw [render]
  by_cases left : d.leftAlign = true
  · simp [left, sign_no_point, blanks]
  · by_cases zero : (d.zeroPad && x.isFinite) = true
    · simp [left, zero, sign_no_point, zeros]
    · simp [left, zero, sign_no_point, blanks]

def plainBody (d : Directive) (code : Nat) : Text :=
  match d.conversion with
  | .fixed => fixedText d.precision d.alternate code
  | .scientific => scientificText d.precision d.alternate code
  | .general => generalText d.precision d.alternate code

theorem body_point (d : Directive) (negative : Bool) (code : Fin 0x7FF0000000000000) :
    (d.body (.finite negative code)).count '.' = (d.plainBody code).count '.' := by
  have unfolded : d.body (.finite negative code) =
      if d.upper then (d.plainBody code).map Char.toUpper else d.plainBody code := rfl
  rw [unfolded]
  by_cases upper : d.upper = true
  · rw [if_pos upper, upper_keeps_points]
  · rw [if_neg upper]

end Directive

-- With the alternate flag a finite number is written with one point, unless the general conversion
-- has no digit to put behind it: then there is none.
theorem alternate_point (d : Written.Specification) (alternate : '#' ∈ d.flags) :
    Pattern.read d.text = .ok ⟨[], d.directive, []⟩ ∧
      ∀ (negative : Bool) (code : Fin 0x7FF0000000000000),
        let points := (d.directive.render (.finite negative code)).count '.'
        let bare := d.letter.conversion = .general ∧ Directive.EndsWhole d.directive.precision code
        (bare → points = 0) ∧ (¬ bare → points = 1) := by
  refine ⟨Written.specification_reads d, fun negative code => ?_⟩
  have flag : d.directive.alternate = true := decide_eq_true alternate
  dsimp only
  rw [Directive.render_point, Directive.body_point, Directive.plainBody, flag]
  change (d.directive.conversion = .general ∧ _ → _) ∧ (¬ (d.directive.conversion = .general ∧ _) → _)
  cases d.directive.conversion with
  | fixed => simp [Directive.fixed_keeps_point]
  | scientific => simp [Directive.scientific_keeps_point]
  | general =>
      obtain ⟨none_, one⟩ := Directive.general_point d.directive.precision code
      exact ⟨fun bare => none_ bare.2, fun more => one fun whole => more ⟨rfl, whole⟩⟩

-- Nine and a half, with a sign, in two digits and filled up with zeros.
theorem two_digits_with_point :
    let d : Written.Specification :=
      ⟨['+', '#', '0'], by simp [Written.flagMarks],
        some ⟨⟨⟨['8'], by simp⟩, by decide⟩, by decide, by decide⟩,
        some ⟨⟨['2'], by simp⟩, by decide⟩, none, ⟨.general, false⟩⟩
    let x := Binary64.finite false 0x4023000000000000
    '#' ∈ d.flags ∧ d.directive.render x = ['+', '0', '0', '0', '0', '9', '.', '5'] ∧
      (d.directive.render x).count '.' = 1 := by
  intro d x
  have alternate : '#' ∈ d.flags := by decide
  have exponent : (Directive.mantissa 1 0x4023000000000000).2 = 0 := by decide +kernel
  have more : ¬ Directive.EndsWhole 2 0x4023000000000000 := by simp [Directive.EndsWhole, exponent]
  obtain ⟨_, points⟩ := alternate_point d alternate
  exact ⟨alternate, by decide +kernel, (points false 0x4023000000000000).2 (more ∘ And.right)⟩

-- A single digit is all that one needs, and the point goes with the digits behind it.
theorem one_digit_without_point :
    ∃ pattern, Pattern.read ['%', '#', '.', '1', 'g'] = .ok pattern ∧
      pattern.directive.alternate = true ∧
      pattern.render (.finite false 0x3FF0000000000000) = ['1'] ∧
      (pattern.directive.render (.finite false 0x3FF0000000000000)).count '.' = 0 := by
  refine ⟨⟨[], ⟨false, false, false, false, true, 0, 1, .general, false⟩, []⟩, rfl, rfl, ?_⟩
  decide +kernel

end ArithTemplate
