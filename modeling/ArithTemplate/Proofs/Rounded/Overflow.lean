import ArithTemplate.Binary64.Arithmetic
import ArithTemplate.Proofs.Rounded.Decimal

set_option autoImplicit false

namespace ArithTemplate.Binary64

-- The number a rational of the given sign is rounded to: the nearest one, a half to the even code, and
-- infinity from the middle between the largest number and the next power of two on.
inductive RoundsTo (negative : Bool) (q : ℚ) : Binary64 → Prop where
  | finite (code : Fin 0x7FF0000000000000) (nearest : ReadAs code q) :
      RoundsTo negative q (.finite negative code)
  | infinite (large : 2 ^ 1024 - 2 ^ 970 ≤ q) : RoundsTo negative q (.infinite negative)

def largestCode : ℕ := 0x7FEFFFFFFFFFFFFF

theorem top_power : (2 : ℚ) ^ 1024 = 2 ^ 54 * 2 ^ 970 := pow_add 2 54 970

theorem top_power_pos : (0 : ℚ) < 2 ^ 970 := pow_pos two_pos 970

-- The middle, in units.
theorem overflow_units :
    (units largestCode : ℚ) + units codeLimit = 2 * ((2 ^ 1024 - 2 ^ 970) * unitsPerOne) := by
  have bit : impliedBit = 4503599627370496 := rfl
  have shape : codeLimit = 2046 * impliedBit + impliedBit := by decide
  have next : codeLimit = largestCode + 1 := by decide
  have top : units codeLimit = impliedBit * 2 ^ 2046 := by
    rw [shape, units_shifted 2046 impliedBit (by decide) (.inr (Nat.le_refl _))]
  have step : units codeLimit = units largestCode + 2 ^ 2045 := by
    have exponent : largestCode / impliedBit - 1 = 2045 := by decide
    rw [next, units_step, exponent]
  have topUnits : impliedBit * 2 ^ 2046 = 2 ^ 54 * (2 ^ 970 * unitsPerOne) := by decide +kernel
  have stepUnits : 2 ^ 2045 = 2 * (2 ^ 970 * unitsPerOne) := by decide +kernel
  have half : ((2 ^ 970 * unitsPerOne : ℕ) : ℚ) = 2 ^ 970 * unitsPerOne := by
    rw [Nat.cast_mul, Nat.cast_pow, Nat.cast_ofNat]
  rw [step, stepUnits, topUnits] at top
  rw [step, stepUnits, top_power, sub_mul, mul_assoc, ← half]
  generalize 2 ^ 970 * unitsPerOne = size at top ⊢
  have last : (units largestCode : ℚ) + 2 * size = 2 ^ 54 * size := by exact_mod_cast top
  push_cast
  linarith

theorem units_below_middle (code : Fin 0x7FF0000000000000) :
    (units code : ℚ) < (2 ^ 1024 - 2 ^ 970) * unitsPerOne := by
  have most : (units code : ℚ) ≤ units largestCode :=
    Nat.cast_le.2 (units_increase.monotone (Nat.le_of_lt_succ code.isLt))
  have next : (units largestCode : ℚ) < units codeLimit := units_order _ _ (by decide)
  have middle := overflow_units
  generalize (2 ^ 1024 - 2 ^ 970 : ℚ) * unitsPerOne = half at middle ⊢
  linarith

theorem exists_nearest (q : ℚ) (nonneg : 0 ≤ q) : ∃ code, Nearest q code := by
  have nearest := nearest_code_nearest q.num.toNat q.den q.den_pos
  have num : ((q.num.toNat : ℕ) : ℚ) = q.num := by
    exact_mod_cast Int.toNat_of_nonneg (Rat.num_nonneg.2 nonneg)
  rw [num, Rat.num_div_den] at nearest
  exact ⟨_, nearest⟩

section Large

variable (q : ℚ)

-- On the middle itself the even code is that of infinity.
theorem large_iff : 2 ^ 1024 - 2 ^ 970 ≤ q ↔
    (units largestCode : ℚ) + units codeLimit ≤ 2 * (q * unitsPerOne) := by
  rw [overflow_units, mul_le_mul_iff_right₀ two_pos, mul_le_mul_iff_left₀ units_per_one_pos]

theorem large_nowhere (code : Fin 0x7FF0000000000000) (large : 2 ^ 1024 - 2 ^ 970 ≤ q) :
    ¬ ReadAs code q := by
  intro read
  have inside : code.val ≤ largestCode := Nat.le_of_lt_succ code.isLt
  have below := read.below_midpoint codeLimit code.isLt
  have above := (large_iff q).1 large
  have order : units code ≤ units largestCode := units_increase.monotone inside
  have same : (units code : ℚ) = units largestCode := by
    have cast : (units code : ℚ) ≤ units largestCode := Nat.cast_le.2 order
    linarith
  have last : code.val = largestCode := units_increase.injective (by exact_mod_cast same)
  have middle : |q * unitsPerOne - units code| = |q * unitsPerOne - units codeLimit| :=
    (equally_near (units_order code codeLimit code.isLt)).2 (by linarith)
  have even := read.tie codeLimit (ne_of_gt code.isLt) middle
  rw [last] at even
  exact absurd even (by decide)

theorem nowhere_large (nonneg : 0 ≤ q)
    (nowhere : ∀ code : Fin 0x7FF0000000000000, ¬ ReadAs code q) : 2 ^ 1024 - 2 ^ 970 ≤ q := by
  obtain ⟨code, nearest⟩ := exists_nearest (q * unitsPerOne) (mul_nonneg nonneg units_per_one_pos.le)
  have outside : codeLimit ≤ code := Nat.le_of_not_lt fun inside => nowhere ⟨code, inside⟩ nearest
  have above := nearest.above_midpoint largestCode (Nat.lt_of_lt_of_le (by decide) outside)
  have order : (units codeLimit : ℚ) ≤ units code := Nat.cast_le.2 (units_increase.monotone outside)
  rw [large_iff]
  linarith

end Large

theorem rounds_unique (negative : Bool) (q : ℚ) (x y : Binary64) (left : RoundsTo negative q x)
    (right : RoundsTo negative q y) : x = y := by
  cases left with
  | finite code nearest =>
      cases right with
      | finite other nearest' => rw [Fin.ext (nearest.unique nearest')]
      | infinite large => exact absurd nearest (large_nowhere q code large)
  | infinite large =>
      cases right with
      | finite code nearest => exact absurd nearest (large_nowhere q code large)
      | infinite _ => rfl

theorem of_ratio_signed (negative : Bool) (num den : ℕ) :
    ofRatio negative num den = .infinite negative ∨
      ∃ code, ofRatio negative num den = .finite negative code := by
  rw [ofRatio]
  split
  · exact .inr ⟨_, rfl⟩
  · exact .inl rfl

theorem of_decimal_signed (negative : Bool) (d : Decimal) :
    ofDecimal negative d = .infinite negative ∨ ∃ code, ofDecimal negative d = .finite negative code := by
  rw [ofDecimal]
  split
  · exact .inr ⟨0, rfl⟩
  · split
    · split
      · exact .inl rfl
      · exact of_ratio_signed ..
    · split
      · exact .inr ⟨0, rfl⟩
      · exact of_ratio_signed ..

theorem rational_nonneg (d : Decimal) : 0 ≤ d.rational :=
  mul_nonneg (Nat.cast_nonneg _) (zpow_nonneg (by norm_num) _)

theorem of_decimal_rounds (negative : Bool) (d : Decimal) :
    RoundsTo negative d.rational (ofDecimal negative d) := by
  rcases of_decimal_signed negative d with overflow | ⟨code, finite⟩
  · rw [overflow]
    refine .infinite (nowhere_large _ (rational_nonneg d) fun code read => ?_)
    have finite := (of_decimal_iff negative negative d code).2 ⟨rfl, read⟩
    cases overflow.symm.trans finite
  · rw [finite]
    exact .finite code ((of_decimal_iff negative negative d code).1 finite).2

-- Far outside the range the value itself does not matter.
theorem rounds_huge (negative : Bool) (q : ℚ) (huge : 10 ^ (324 : ℤ) ≤ q) :
    RoundsTo negative q (.infinite negative) := by
  have whole : 2 ^ 1024 ≤ 10 ^ 324 := by decide +kernel
  have cast : (2 : ℚ) ^ 1024 ≤ 10 ^ (324 : ℤ) := by exact_mod_cast whole
  exact .infinite ((sub_le_self _ top_power_pos.le).trans (cast.trans huge))

theorem rounds_tiny (negative : Bool) (q : ℚ) (tiny : q ≤ 10 ^ (-324 : ℤ)) :
    RoundsTo negative q (zero negative) := by
  have whole : 2 * unitsPerOne ≤ 10 ^ 324 := by decide +kernel
  have cast : (2 : ℚ) * unitsPerOne ≤ 10 ^ (324 : ℤ) := by exact_mod_cast whole
  refine .finite 0 (nearest_nothing _ ?_)
  calc
    2 * (q * unitsPerOne) = q * (2 * unitsPerOne) := by ring
    _ ≤ 10 ^ (-324 : ℤ) * (2 * unitsPerOne) :=
      mul_le_mul_of_nonneg_right tiny (mul_nonneg zero_le_two units_per_one_pos.le)
    _ ≤ 10 ^ (-324 : ℤ) * 10 ^ (324 : ℤ) := mul_le_mul_of_nonneg_left cast (zpow_nonneg (by norm_num) _)
    _ = 1 := by rw [← zpow_add₀ (by norm_num)]; rfl

theorem of_ratio_rounds (negative : Bool) (num den : ℕ) (positive : 0 < den) :
    RoundsTo negative (num / den / unitsPerOne) (ofRatio negative num den) := by
  have read (code : ℕ) : ReadAs code (num / den / unitsPerOne) ↔ Nearest (num / den) code := by
    rw [ReadAs, div_mul_cancel₀ _ (ne_of_gt units_per_one_pos)]
  rcases of_ratio_signed negative num den with overflow | ⟨code, finite⟩
  · have nonneg : (0 : ℚ) ≤ num / den / unitsPerOne :=
      div_nonneg (div_nonneg (Nat.cast_nonneg _) (Nat.cast_nonneg _)) units_per_one_pos.le
    rw [overflow]
    refine .infinite (nowhere_large _ nonneg fun code near => ?_)
    have finite := (of_ratio_iff negative negative num den code positive).2 ⟨rfl, (read code).1 near⟩
    cases overflow.symm.trans finite
  · rw [finite]
    have nearest := ((of_ratio_iff negative negative num den code positive).1 finite).2
    exact .finite code ((read code).2 nearest)

theorem of_ratio_finite (negative : Bool) (num den : ℕ) (positive : 0 < den)
    (small : (num : ℚ) / den < (2 ^ 1024 - 2 ^ 970) * unitsPerOne) :
    ∃ code, ofRatio negative num den = .finite negative code ∧ Nearest (num / den) code := by
  have rounds := of_ratio_rounds negative num den positive
  generalize ofRatio negative num den = x at rounds
  cases rounds with
  | finite code nearest =>
      rw [ReadAs, div_mul_cancel₀ _ (ne_of_gt units_per_one_pos)] at nearest
      exact ⟨code, rfl, nearest⟩
  | infinite large =>
      rw [le_div_iff₀ units_per_one_pos] at large
      exact absurd small (not_lt.2 large)

theorem rounds_neg (negative : Bool) (q : ℚ) (x : Binary64) (rounds : RoundsTo negative q x) :
    RoundsTo (!negative) q x.neg := by
  cases rounds with
  | finite code nearest => exact .finite code nearest
  | infinite large => exact .infinite large

-- A number is at least so many of its steps.
theorem units_reached (code : ℕ) (normal : impliedBit ≤ code) :
    impliedBit * 2 ^ (code / impliedBit - 1) ≤ units code := by
  have bit : impliedBit = 4503599627370496 := rfl
  rw [units]
  split
  · have first : code / impliedBit - 1 = 0 := by
      rw [bit] at *
      omega
    rw [first, pow_zero, Nat.mul_one]
    exact normal
  · exact Nat.mul_le_mul_right _ (Nat.le_add_right _ _)

-- Rounding adds at most half a step.
theorem nearest_excess (q : ℚ) (code : ℕ) (nearest : Nearest q code) (normal : (impliedBit : ℚ) ≤ q) :
    (units code : ℚ) ≤ q * (1 + 1 / 2 ^ 53) := by
  have bit : (impliedBit : ℚ) = 2 ^ 52 := by norm_num [impliedBit]
  rw [bit] at normal
  cases code with
  | zero =>
      rw [units_zero, Nat.cast_zero]
      positivity
  | succ last =>
      have middle := nearest.above_midpoint last (Nat.lt_succ_self last)
      have step : (units (last + 1) : ℚ) = units last + 2 ^ (last / impliedBit - 1) := by
        exact_mod_cast units_step last
      have size : (2 : ℚ) ^ 52 * 2 ^ (last / impliedBit - 1) ≤ q := by
        by_cases small : last < impliedBit
        · have first : last / impliedBit - 1 = 0 := by
            rw [Nat.div_eq_of_lt small]
          rw [first, pow_zero, mul_one]
          exact normal
        · have reached : ((impliedBit * 2 ^ (last / impliedBit - 1) : ℕ) : ℚ) ≤ units last :=
            Nat.cast_le.2 (units_reached last (Nat.le_of_not_lt small))
          push_cast at reached
          rw [bit] at reached
          have positive : (0 : ℚ) < 2 ^ (last / impliedBit - 1) := by positivity
          linarith
      generalize (2 : ℚ) ^ (last / impliedBit - 1) = gap at step size
      have least : gap ≤ q / 2 ^ 52 := by
        rw [le_div_iff₀ (by positivity)]
        linarith
      calc
        (units (last + 1) : ℚ) ≤ q + q / 2 ^ 52 / 2 := by linarith
        _ = q * (1 + 1 / 2 ^ 53) := by ring

end ArithTemplate.Binary64
