import ArithTemplate.Proofs.Rounded.Binary
import Mathlib.Algebra.Order.Field.Power

set_option autoImplicit false

namespace ArithTemplate

def Decimal.rational (d : Decimal) : ℚ := d.coefficient * 10 ^ d.exponent

namespace Binary64

-- The number a code stands for. Its bits are an exponent field and a fraction of 52 bits, which has a
-- one in front of it unless the exponent field is zero.
def magnitude (code : ℕ) : ℚ :=
  let exponent := code / impliedBit
  let fraction := code % impliedBit
  if exponent = 0 then fraction * 2 ^ (-1074 : ℤ)
  else (impliedBit + fraction) * 2 ^ ((exponent : ℤ) - 1075)

theorem cast_power (base exponent : ℕ) : (Nat.pow base exponent : ℚ) = (base : ℚ) ^ (exponent : ℤ) := by
  rw [Nat.pow_eq, Nat.cast_pow, zpow_natCast]

theorem units_per_one : (unitsPerOne : ℚ) = 2 ^ (1074 : ℤ) := by
  unfold unitsPerOne
  generalize finest : 1074 = places
  rw [cast_power, ← finest]
  norm_num

theorem units_per_one_pos : (0 : ℚ) < unitsPerOne := units_per_one ▸ zpow_pos two_pos _

theorem magnitude_units (code : ℕ) : magnitude code = units code / unitsPerOne := by
  have bit : impliedBit = 4503599627370496 := rfl
  have unit : (2 : ℚ) ^ (-1074 : ℤ) = (unitsPerOne : ℚ)⁻¹ := by rw [zpow_neg, units_per_one]
  rw [magnitude]
  by_cases zero : code / impliedBit = 0
  · have small : code < impliedBit := by
      rw [bit] at zero ⊢
      omega
    rw [if_pos zero, units, if_pos (by omega), Nat.mod_eq_of_lt small, unit, div_eq_mul_inv]
  · obtain ⟨k, exponent⟩ := Nat.exists_eq_add_one_of_ne_zero zero
    have shifted : (2 : ℚ) ^ (((k + 1 : ℕ) : ℤ) - 1075) = 2 ^ k * (unitsPerOne : ℚ)⁻¹ := by
      rw [← unit, ← zpow_natCast, ← zpow_add₀ two_ne_zero]
      congr 1
      omega
    rw [if_neg zero, exponent, shifted, units, div_eq_mul_inv, ← mul_assoc]
    congr 1
    split
    · have first : k = 0 := by
        rw [bit] at *
        omega
      have whole : impliedBit + code % impliedBit = code := by
        rw [bit] at *
        omega
      rw [first, pow_zero, mul_one]
      exact_mod_cast whole
    · rw [exponent, Nat.add_sub_cancel, Nat.pow_eq]
      push_cast
      rfl

theorem of_ratio_iff (sign negative : Bool) (num den : ℕ) (code : Fin 0x7FF0000000000000)
    (positive : 0 < den) :
    ofRatio sign num den = .finite negative code ↔ sign = negative ∧ Nearest (num / den) code := by
  rw [← nearest_code_iff num den code positive, ofRatio]
  split
  · rename_i inside
    rw [finite.injEq, Fin.ext_iff]
  · rename_i outside
    constructor
    · intro absurd
      cases absurd
    · rintro ⟨_, same⟩
      exact absurd code.isLt (same ▸ outside)

theorem nearest_inside (q : ℚ) (code : Fin 0x7FF0000000000000) (nearest : Nearest q code) :
    q < units codeLimit := by
  have order := units_order code codeLimit code.isLt
  linarith [nearest.below_midpoint codeLimit code.isLt]

theorem nearest_nothing (q : ℚ) (small : 2 * q ≤ 1) : Nearest q 0 := by
  have least (other : ℕ) (different : other ≠ 0) : (1 : ℚ) ≤ units other := by
    have more := units_increase (Nat.pos_of_ne_zero different)
    exact_mod_cast more
  have order (other : ℕ) (different : other ≠ 0) : (units 0 : ℚ) < units other :=
    units_order _ _ (Nat.pos_of_ne_zero different)
  constructor
  · intro other
    by_cases same : other = 0
    · rw [same]
    · refine (nearer_below (order other same)).2 ?_
      rw [units_zero]
      push_cast
      linarith [least other same]
  · exact fun _ _ _ => Even.zero

-- A decimal with so many zeros is past the largest number, and one with so many places is nearer to
-- zero than to the smallest.
theorem large_decimal (coefficient zeros : ℕ) (nonzero : coefficient ≠ 0) (large : 1024 ≤ zeros) :
    units codeLimit ≤ coefficient * Nat.pow 10 zeros * unitsPerOne := by
  have top : codeLimit = 2046 * impliedBit + impliedBit := by decide
  have bit : impliedBit = 2 ^ 52 := rfl
  rw [top, units_shifted 2046 impliedBit (by decide) (.inr (Nat.le_refl _)), bit, ← pow_add]
  unfold unitsPerOne
  generalize finest : 1074 = places
  generalize largest : 52 + 2046 = bits
  simp only [Nat.pow_eq]
  calc
    2 ^ bits ≤ 2 ^ (zeros + places) := Nat.pow_le_pow_right (by decide) (by omega)
    _ = 2 ^ zeros * 2 ^ places := pow_add 2 zeros places
    _ ≤ 10 ^ zeros * 2 ^ places := Nat.mul_le_mul_right _ (Nat.pow_le_pow_left (by decide) zeros)
    _ ≤ coefficient * 10 ^ zeros * 2 ^ places :=
      Nat.mul_le_mul_right _ (Nat.le_mul_of_pos_left _ (Nat.pos_of_ne_zero nonzero))

theorem tiny_decimal (coefficient places : ℕ) (tiny : Nat.log2 coefficient + 1076 ≤ places) :
    2 * (coefficient * unitsPerOne) ≤ Nat.pow 10 (places + 1) := by
  have below : coefficient ≤ 2 ^ (Nat.log2 coefficient + 1) := Nat.le_of_lt Nat.lt_log2_self
  unfold unitsPerOne
  generalize finest : 1074 = power
  simp only [Nat.pow_eq]
  calc
    2 * (coefficient * 2 ^ power) ≤ 2 * (2 ^ (Nat.log2 coefficient + 1) * 2 ^ power) :=
      Nat.mul_le_mul_left _ (Nat.mul_le_mul_right _ below)
    _ = 2 ^ (Nat.log2 coefficient + power + 2) := by ring
    _ ≤ 2 ^ (places + 1) := Nat.pow_le_pow_right (by decide) (by omega)
    _ ≤ 10 ^ (places + 1) := Nat.pow_le_pow_left (by decide) _

-- The decimals a number is read from.
def ReadAs (code : ℕ) (q : ℚ) : Prop := Nearest (q * unitsPerOne) code

theorem read_zero : ReadAs 0 0 := by
  rw [ReadAs, zero_mul]
  exact nearest_nothing 0 (by norm_num)

section Read

variable (sign negative : Bool) (code : Fin 0x7FF0000000000000)

theorem zero_iff (q : ℚ) (nearest : Nearest q 0) :
    zero sign = .finite negative code ↔ sign = negative ∧ Nearest q code := by
  rw [zero, finite.injEq, Fin.ext_iff]
  refine and_congr_right fun _ => ?_
  constructor
  · intro same
    rwa [← same]
  · exact nearest.unique

variable (coefficient : ℕ) (nonzero : coefficient ≠ 0)

include nonzero

theorem of_whole_iff (zeros : ℕ) : ofDecimal sign ⟨coefficient, .ofNat zeros⟩ = .finite negative code ↔
    sign = negative ∧ Nearest (coefficient * Nat.pow 10 zeros * unitsPerOne : ℕ) code := by
  rw [ofDecimal, if_neg nonzero]
  dsimp only
  by_cases large : 1024 ≤ zeros
  · rw [if_pos large]
    constructor
    · intro absurd
      cases absurd
    · rintro ⟨_, nearest⟩
      have below := nearest_inside _ code nearest
      have above := large_decimal coefficient zeros nonzero large
      exact absurd (Nat.cast_le.2 above) (not_le.2 below)
  · rw [if_neg large, of_ratio_iff _ _ _ _ _ Nat.one_pos, Nat.cast_one, div_one]

theorem of_places_iff (places : ℕ) :
    ofDecimal sign ⟨coefficient, .negSucc places⟩ = .finite negative code ↔ sign = negative ∧
      Nearest ((coefficient * unitsPerOne : ℕ) / (Nat.pow 10 (places + 1) : ℕ)) code := by
  have positive : 0 < Nat.pow 10 (places + 1) := Nat.pow_pos (by decide)
  rw [ofDecimal, if_neg nonzero]
  dsimp only
  by_cases tiny : Nat.log2 coefficient + 1076 ≤ places
  · rw [if_pos tiny]
    refine zero_iff sign negative code _ (nearest_nothing _ ?_)
    rw [← mul_div_assoc, div_le_iff₀ (Nat.cast_pos.2 positive), one_mul]
    exact_mod_cast tiny_decimal coefficient places tiny
  · rw [if_neg tiny, of_ratio_iff _ _ _ _ _ positive]

end Read

theorem of_decimal_iff (sign negative : Bool) (d : Decimal) (code : Fin 0x7FF0000000000000) :
    ofDecimal sign d = .finite negative code ↔ sign = negative ∧ ReadAs code d.rational := by
  obtain ⟨coefficient, exponent⟩ := d
  rw [ReadAs, Decimal.rational]
  by_cases empty : coefficient = 0
  · rw [ofDecimal, if_pos empty, empty, Nat.cast_zero, zero_mul]
    exact zero_iff sign negative code _ read_zero
  · cases exponent with
    | ofNat zeros =>
        have scaled : (coefficient : ℚ) * 10 ^ (Int.ofNat zeros) * unitsPerOne =
            (coefficient * Nat.pow 10 zeros * unitsPerOne : ℕ) := by
          rw [Nat.cast_mul, Nat.cast_mul, cast_power]
          rfl
        rw [scaled]
        exact of_whole_iff sign negative code coefficient empty zeros
    | negSucc places =>
        have scaled : (coefficient : ℚ) * 10 ^ (Int.negSucc places) * unitsPerOne =
            (coefficient * unitsPerOne : ℕ) / (Nat.pow 10 (places + 1) : ℕ) := by
          rw [Nat.cast_mul, cast_power, zpow_negSucc, zpow_natCast]
          push_cast
          ring
        rw [scaled]
        exact of_places_iff sign negative code coefficient empty places

end Binary64
end ArithTemplate
