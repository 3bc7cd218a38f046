import ArithTemplate.Proofs.Json.Literal
import ArithTemplate.Proofs.Json.Number
import ArithTemplate.Proofs.Rounded.Integer

set_option autoImplicit false

open ArithTemplate.Binary64 (Nearest RoundsTo units unitsPerOne wholeLimit)

namespace ArithTemplate.Json

-- Powers of ten up to this one are numbers themselves.
def exactPower : ℕ := 22

-- A number that is rounded once: digits alone that fit a word, or digits that are a number themselves
-- with a power of ten that is one, too.
inductive Exact (n : Written.Number) : Prop where
  | whole (integral : n.mantissa.decimals = none) (unscaled : n.power = none)
      (fits : n.decimal.coefficient < Numeral.wordLimit) : Exact n
  | scaled (digits : n.decimal.coefficient ≤ wholeLimit) (power : n.decimal.exponent.natAbs ≤ exactPower) :
      Exact n

section Factors

variable (word n : ℕ) (small : word ≤ wholeLimit) (power : n ≤ exactPower)

include small in
theorem whole_exact (negative : Bool) :
    ∃ code, wholeToBinary negative word = .finite negative code ∧ units code = word * unitsPerOne := by
  obtain ⟨code, value⟩ := Binary64.whole_code word small
  exact ⟨code, Binary64.of_ratio_exact negative _ 1 code Nat.one_pos (by rw [value, Nat.mul_one]), value⟩

include power in
theorem power_exact : ∃ code, powerOfTen n = .finite false code ∧ units code = 10 ^ n * unitsPerOne := by
  have codes : ∀ k : Fin (exactPower + 1),
      units (Binary64.nearestCode (10 ^ k.val * unitsPerOne) 1) = 10 ^ k.val * unitsPerOne := by
    decide +kernel
  have value := codes ⟨n, Nat.lt_succ_of_le power⟩
  obtain ⟨code, read, nearest⟩ := power_read n (power.trans (by decide))
  have itself := Nearest.of_units (Binary64.nearestCode (10 ^ n * unitsPerOne) 1)
  rw [value, Nat.cast_mul, Nat.cast_pow, Nat.cast_ofNat] at itself
  exact ⟨code, read, by rw [nearest.unique itself, value]⟩

include small power

-- Both factors are numbers, so the product is rounded only once.
theorem product_rounds :
    RoundsTo false (word * 10 ^ n) ((wholeToBinary false word).mul (powerOfTen n)) := by
  obtain ⟨a, left, valueA⟩ := whole_exact word small false
  obtain ⟨b, right, valueB⟩ := power_exact n power
  have unit := Binary64.units_per_one_pos
  have rounds := Binary64.of_ratio_rounds (false != false) (units a * units b) unitsPerOne (Nat.cast_pos.1 unit)
  have ratio : ((units a * units b : ℕ) : ℚ) / unitsPerOne / unitsPerOne = word * 10 ^ n := by
    rw [valueA, valueB]
    push_cast
    field_simp
  rw [ratio] at rounds
  rw [left, right]
  exact rounds

theorem quotient_rounds :
    RoundsTo false (word / 10 ^ n) ((wholeToBinary false word).div (powerOfTen n)) := by
  obtain ⟨a, left, valueA⟩ := whole_exact word small false
  obtain ⟨b, right, valueB⟩ := power_exact n power
  have unit := Binary64.units_per_one_pos
  have positive : 0 < units b := by
    rw [valueB]
    exact Nat.mul_pos (Nat.pow_pos (by decide)) (Nat.cast_pos.1 unit)
  have nonzero : b.val ≠ 0 := by
    intro zero
    rw [zero] at positive
    exact absurd positive (Nat.lt_irrefl 0)
  have rounds := Binary64.of_ratio_rounds (false != false) (units a * unitsPerOne) (units b) positive
  have ratio : ((units a * unitsPerOne : ℕ) : ℚ) / units b / unitsPerOne = word / 10 ^ n := by
    rw [valueA, valueB]
    push_cast
    field_simp
  rw [ratio] at rounds
  rw [left, right, Binary64.div, if_neg nonzero]
  exact rounds

end Factors

theorem scaled_rounds (word : ℕ) (exponent : ℤ) (small : word ≤ wholeLimit)
    (power : exponent.natAbs ≤ exactPower) :
    ∃ x, scaled word exponent = .ok x ∧ RoundsTo false (Decimal.rational ⟨word, exponent⟩) x := by
  have table : exactPower ≤ largestPower := by decide
  cases exponent with
  | ofNat n =>
      have below : n ≤ exactPower := power
      have finite : ((wholeToBinary false word).mul (powerOfTen n)).isFinite = true := by
        refine product_read word n (small.trans_lt (by decide)) (below.trans table) ?_
        have most : word * 10 ^ n ≤ 2 ^ 53 * 10 ^ 22 :=
          Nat.mul_le_mul small (Nat.pow_le_pow_right (by decide) below)
        have cast : (word : ℚ) * 10 ^ n ≤ 2 ^ 53 * 10 ^ 22 := by exact_mod_cast most
        have whole : 2 ^ 53 * 10 ^ 22 + 2 ^ 973 ≤ 2 ^ 1024 := by decide +kernel
        have limit : (2 : ℚ) ^ 53 * 10 ^ 22 + 2 ^ 973 ≤ 2 ^ 1024 := by exact_mod_cast whole
        exact cast.trans (le_sub_iff_add_le.2 limit)
      have rounds := product_rounds word n small below
      refine ⟨_, ?_, rounds⟩
      rw [scaled, scaleUp, if_pos (below.trans table)]
      dsimp only
      rw [if_pos finite]
  | negSucc n =>
      have below : n + 1 ≤ exactPower := power
      have rounds := quotient_rounds word (n + 1) small below
      refine ⟨(wholeToBinary false word).div (powerOfTen (n + 1)), ?_, ?_⟩
      · rw [scaled, scaleDown, if_pos (below.trans table)]
      · rw [Decimal.rational, zpow_negSucc, ← div_eq_mul_inv]
        exact rounds

section Read

variable (n : Written.Number)

-- Nothing of such digits is left out.
theorem digits_gathered (small : n.decimal.coefficient < Numeral.wordLimit) :
    gather n.literal.whole 0 = (Numeral.value n.literal.whole, 0) ∧
      gather (n.literal.fraction.getD []) (Numeral.value n.literal.whole) = (n.decimal.coefficient, 0) := by
  have split : n.decimal.coefficient = Numeral.value n.literal.whole * 10 ^ (n.literal.fraction.getD []).length +
      Numeral.value (n.literal.fraction.getD []) := by
    rw [Nat.mul_comm]
    exact Numeral.value_append _ _
  have first : Numeral.value n.literal.whole ≤ n.decimal.coefficient := by
    rw [split]
    exact (Nat.le_mul_of_pos_right _ (by positivity)).trans (Nat.le_add_right _ _)
  constructor
  · rw [gather_fits _ _ (by rw [Nat.zero_mul, Nat.zero_add]; omega), Nat.zero_mul, Nat.zero_add]
  · rw [gather_fits _ _ (by rwa [← split]), ← split]

theorem magnitude_of_digits (small : n.decimal.coefficient < Numeral.wordLimit) :
    magnitudeOf n.literal =
      if largestExponent < (Written.powerValue n.power).natAbs then
        if n.decimal.coefficient ≠ 0 ∧ 0 < Written.powerValue n.power then .error .outOfRange
        else .ok (.zero false)
      else scaled n.decimal.coefficient n.decimal.exponent := by
  obtain ⟨whole, fraction⟩ := digits_gathered n small
  have exponent : ((0 : ℕ) : ℤ) - (((n.literal.fraction.getD []).length : ℤ) - (0 : ℕ)) +
      Written.powerValue n.power = n.decimal.exponent := by
    simp only [Written.Number.decimal, Written.Number.literal]
    omega
  rw [magnitudeOf, written_power]
  simp only [whole, fraction, exponent]

theorem nothing_rounds (negative : Bool) (nothing : n.decimal.coefficient = 0) :
    RoundsTo negative n.rational (.zero negative) := by
  have zero : n.rational = 0 := by
    rw [Written.Number.rational, Decimal.rational, nothing, Nat.cast_zero, zero_mul]
  rw [zero]
  exact .finite 0 Binary64.read_zero

theorem magnitude_rounds (digits : n.decimal.coefficient ≤ wholeLimit)
    (power : n.decimal.exponent.natAbs ≤ exactPower)
    (counts : n.decimal.coefficient = 0 ∨ Written.powerValue n.power ≤ largestExponent) :
    ∃ x, magnitudeOf n.literal = .ok x ∧ RoundsTo false n.rational x := by
  have table : exactPower ≤ largestExponent := by decide
  rw [magnitude_of_digits n (digits.trans_lt (by decide))]
  by_cases far : largestExponent < (Written.powerValue n.power).natAbs
  · have nothing : n.decimal.coefficient = 0 := by
      refine counts.resolve_right fun most => ?_
      simp only [Written.Number.decimal] at power
      omega
    rw [if_pos far, if_neg fun some => some.1 nothing]
    exact ⟨_, rfl, nothing_rounds n false nothing⟩
  · rw [if_neg far]
    exact scaled_rounds _ _ digits power

theorem integer_reads (integral : n.mantissa.decimals = none) (unscaled : n.power = none)
    (fits : n.decimal.coefficient < Numeral.wordLimit) :
    Reads n (wholeToBinary (Written.isMinus n.sign) n.decimal.coefficient) := by
  obtain ⟨gathered, _⟩ := digits_gathered n fits
  have whole : n.decimal.coefficient = Numeral.value n.literal.whole := by
    rw [Written.Number.decimal, integral, Option.getD_none, List.append_nil]
    rfl
  refine ⟨integer n.literal.negative n.decimal.coefficient, ?_, integer_binary _ _⟩
  rw [number_of_eq, gathered, whole]
  refine if_pos ⟨integral, ?_, rfl⟩
  rw [Written.Number.literal, unscaled]
  rfl

theorem integer_rounds (integral : n.mantissa.decimals = none) (unscaled : n.power = none) :
    RoundsTo (Written.isMinus n.sign) n.rational
      (wholeToBinary (Written.isMinus n.sign) n.decimal.coefficient) := by
  have unit := Binary64.units_per_one_pos
  have exponent : n.decimal.exponent = 0 := by
    rw [Written.Number.decimal, integral, unscaled]
    rfl
  have rounds := Binary64.of_ratio_rounds (Written.isMinus n.sign) (n.decimal.coefficient * unitsPerOne) 1
    Nat.one_pos
  rw [Nat.cast_one, div_one, Nat.cast_mul, mul_div_cancel_right₀ _ (ne_of_gt unit)] at rounds
  rw [Written.Number.rational, Decimal.rational, exponent, zpow_zero, mul_one]
  exact rounds

theorem exact_fits (exact : Exact n) : n.decimal.coefficient < Numeral.wordLimit := by
  cases exact with
  | whole _ _ fits => exact fits
  | scaled digits _ => exact digits.trans_lt (by decide)

theorem exact_reads (exact : Exact n)
    (counts : n.decimal.coefficient = 0 ∨ Written.powerValue n.power ≤ largestExponent) :
    ∃ x, Reads n x ∧ RoundsTo (Written.isMinus n.sign) n.rational x := by
  by_cases plain : n.mantissa.decimals = none ∧ n.power = none
  · exact ⟨_, integer_reads n plain.1 plain.2 (exact_fits n exact), integer_rounds n plain.1 plain.2⟩
  · cases exact with
    | whole integral unscaled _ => exact absurd ⟨integral, unscaled⟩ plain
    | scaled digits power =>
        obtain ⟨x, magnitude, rounds⟩ := magnitude_rounds n digits power counts
        have parts : ¬ (n.literal.fraction = none ∧ n.literal.exponent = none ∧
            (gather n.literal.whole 0).2 = 0) := fun none =>
          plain ⟨none.1, Option.map_eq_none_iff.1 none.2.1⟩
        refine ⟨if n.literal.negative then x.neg else x, ⟨.float _, ?_, rfl⟩, ?_⟩
        · rw [number_of_eq, if_neg parts, magnitude]
          rfl
        · change RoundsTo n.literal.negative n.rational _
          cases n.literal.negative with
          | false => exact rounds
          | true => exact Binary64.rounds_neg false _ x rounds

-- An exponent past that limit is refused for digits that are not all zeros.
theorem exact_refused (exact : Exact n) (something : n.decimal.coefficient ≠ 0)
    (far : largestExponent < Written.powerValue n.power) (x : Binary64) : ¬ Reads n x := by
  rintro ⟨v, read, _⟩
  have refused : magnitudeOf n.literal = .error .outOfRange := by
    rw [magnitude_of_digits n (exact_fits n exact), if_pos (by omega), if_pos ⟨something, by omega⟩]
  rw [number_of_eq, refused] at read
  split at read
  · rename_i plain
    have unscaled : n.power = none := Option.map_eq_none_iff.1 plain.2.1
    rw [unscaled] at far
    exact absurd far (by decide)
  · cases read

end Read

end ArithTemplate.Json
