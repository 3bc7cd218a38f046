import ArithTemplate.Proofs.Numeral
import ArithTemplate.Proofs.Rounded.Decimal

set_option autoImplicit false

namespace ArithTemplate

theorem ten_powers (a b c : ℤ) (sum : a + b = c) : (10 : ℚ) ^ a * 10 ^ b = 10 ^ c := by
  rw [← sum, zpow_add₀ (by norm_num)]

theorem ten_power_pos (a : ℤ) : (0 : ℚ) < 10 ^ a := zpow_pos (by norm_num) a

-- Rounded to so many significant digits: to a whole number of the units in which it has that many
-- digits in front of the point. Nothing else is rounded to zero, and zero to nothing else.
inductive RoundedTo (count : ℕ) : ℚ → ℚ → Prop where
  | zero : RoundedTo count 0 0
  | positive {q : ℚ} (exponent : ℤ) (n : ℕ) (lower : 10 ^ exponent ≤ q)
      (upper : q < 10 ^ (exponent + 1))
      (nearest : NearestWhole (q * 10 ^ (count - 1 - exponent)) n) :
      RoundedTo count q (n * 10 ^ (exponent + 1 - count))

theorem leading_unique (q : ℚ) (a b : ℤ) (lower : 10 ^ a ≤ q) (upper : q < 10 ^ (a + 1))
    (lower' : 10 ^ b ≤ q) (upper' : q < 10 ^ (b + 1)) : a = b := by
  have ten : (1 : ℚ) < 10 := by norm_num
  have left := (zpow_lt_zpow_iff_right₀ ten).1 (lt_of_le_of_lt lower upper')
  have right := (zpow_lt_zpow_iff_right₀ ten).1 (lt_of_le_of_lt lower' upper)
  omega

theorem rounded_unique (count : ℕ) (q r s : ℚ) (left : RoundedTo count q r)
    (right : RoundedTo count q s) : r = s := by
  have nonzero (exponent : ℤ) : ¬ (10 : ℚ) ^ exponent ≤ 0 := not_le.2 (ten_power_pos exponent)
  cases left with
  | zero =>
      cases right with
      | zero => rfl
      | positive exponent n lower upper nearest => exact absurd lower (nonzero exponent)
  | positive exponent n lower upper nearest =>
      cases right with
      | zero => exact absurd lower (nonzero exponent)
      | positive exponent' n' lower' upper' nearest' =>
          cases leading_unique q exponent exponent' lower upper lower' upper'
          rw [nearest.unique nearest']

-- What a number is rounded to, by its digits and the exponent of the first of them.
structure RoundedDigits (count : ℕ) (q : ℚ) (digits : ℕ) (exponent : ℤ) : Prop where
  least : 10 ^ (count - 1) ≤ digits
  most : digits < 10 ^ count
  rounded : RoundedTo count q (digits * 10 ^ (exponent + 1 - count))

namespace RoundedDigits

variable {count digits digits' : ℕ} {q : ℚ} {exponent exponent' : ℤ}

theorem leading (nonempty : 0 < count) (d : RoundedDigits count q digits exponent) :
    10 ^ exponent ≤ (digits * 10 ^ (exponent + 1 - count) : ℚ) ∧
      (digits * 10 ^ (exponent + 1 - count) : ℚ) < 10 ^ (exponent + 1) := by
  have scale := ten_power_pos (exponent + 1 - count)
  have least : (10 : ℚ) ^ ((count : ℤ) - 1) ≤ digits := by
    have power : (count : ℤ) - 1 = (count - 1 : ℕ) := by omega
    rw [power, zpow_natCast]
    exact_mod_cast d.least
  have most : (digits : ℚ) < 10 ^ (count : ℤ) := by
    rw [zpow_natCast]
    exact_mod_cast d.most
  constructor
  · rw [← ten_powers (count - 1) (exponent + 1 - count) exponent (by omega)]
    exact mul_le_mul_of_nonneg_right least (le_of_lt scale)
  · rw [← ten_powers count (exponent + 1 - count) (exponent + 1) (by omega)]
    exact mul_lt_mul_of_pos_right most scale

theorem unique (nonempty : 0 < count) (left : RoundedDigits count q digits exponent)
    (right : RoundedDigits count q digits' exponent') : digits = digits' ∧ exponent = exponent' := by
  have same := rounded_unique count q _ _ left.rounded right.rounded
  obtain ⟨lower, upper⟩ := left.leading nonempty
  obtain ⟨lower', upper'⟩ := right.leading nonempty
  rw [← same] at lower' upper'
  cases leading_unique _ exponent exponent' lower upper lower' upper'
  have scale := ne_of_gt (ten_power_pos (exponent + 1 - count))
  exact ⟨by exact_mod_cast mul_right_cancel₀ scale same, rfl⟩

end RoundedDigits

-- Rounded once, to a whole number of exactly `count` digits: also after a carry the digits are what
-- the number is nearest to at their own place, and stand for what was rounded before it.
section Carry

variable {count rounded : ℕ} {q : ℚ} {leading : ℤ} (nonempty : 0 < count) (lower : 10 ^ leading ≤ q)
  (upper : q < 10 ^ (leading + 1)) (nearest : NearestWhole (q * 10 ^ (count - 1 - leading)) rounded)

include nonempty lower upper nearest

theorem digits_kept (uncarried : rounded ≠ 10 ^ count) :
    NearestWhole (q * 10 ^ (-(leading + 1 - count))) rounded ∧
      RoundedDigits count q rounded leading := by
  have scale := ten_power_pos (count - 1 - leading)
  have least : ((10 ^ (count - 1) : ℕ) : ℚ) ≤ q * 10 ^ ((count : ℤ) - 1 - leading) := by
    rw [Nat.cast_pow, ← zpow_natCast, Nat.cast_ofNat,
      ← ten_powers leading (count - 1 - leading) (count - 1 : ℕ) (by omega)]
    exact mul_le_mul_of_nonneg_right lower (le_of_lt scale)
  have most : q * 10 ^ ((count : ℤ) - 1 - leading) < (10 ^ count : ℕ) := by
    rw [Nat.cast_pow, ← zpow_natCast, Nat.cast_ofNat,
      ← ten_powers (leading + 1) (count - 1 - leading) count (by omega)]
    exact mul_lt_mul_of_pos_right upper scale
  have place : -(leading + 1 - count) = (count : ℤ) - 1 - leading := by omega
  rw [place]
  exact ⟨nearest, nearest.at_least least,
    Nat.lt_of_le_of_ne (nearest.at_most (le_of_lt most)) uncarried,
    .positive leading rounded lower upper nearest⟩

theorem digits_carried (carry : rounded = 10 ^ count) :
    NearestWhole (q * 10 ^ (-(leading + 2 - count))) (10 ^ (count - 1)) ∧
      RoundedDigits count q (10 ^ (count - 1)) (leading + 1) := by
  have tenth : ((10 ^ (count - 1) : ℕ) : ℚ) * 10 = rounded := by
    rw [carry]
    exact_mod_cast pow_sub_one_mul (Nat.pos_iff_ne_zero.1 nonempty) 10
  have once : RoundedTo count q (rounded * 10 ^ (leading + 1 - count)) :=
    .positive leading rounded lower upper nearest
  refine ⟨.of_close _ _ ?_, Nat.le_refl _, Nat.pow_lt_pow_right (by decide) (by omega), ?_⟩
  · have close := abs_le.1 nearest.within
    have place := ten_powers (-(leading + 2 - count)) 1 (count - 1 - leading) (by omega)
    rw [zpow_one] at place
    rw [← place, ← mul_assoc, ← tenth] at close
    exact abs_lt.2 ⟨by linarith, by linarith⟩
  · have place := ten_powers 1 (leading + 1 - count) (leading + 1 + 1 - count) (by omega)
    rwa [← place, zpow_one, ← mul_assoc, tenth]

end Carry

-- Rounded to seventeen digits, a number moves by less than half a unit in its seventeenth.
theorem rounded_close (count : ℕ) (q r : ℚ) (enough : 17 ≤ count) (rounded : RoundedTo count q r) :
    2 * 10 ^ 16 * |r - q| ≤ q := by
  cases rounded with
  | zero => norm_num
  | positive exponent n lower upper nearest =>
      have scale := ten_power_pos (exponent + 1 - count)
      have inverse := ten_powers (count - 1 - exponent) (exponent + 1 - count) 0 (by omega)
      have moved : (n * 10 ^ (exponent + 1 - count) : ℚ) - q =
          (n - q * 10 ^ (count - 1 - exponent)) * 10 ^ (exponent + 1 - count) := by
        rw [sub_mul, mul_assoc q, inverse, zpow_zero, mul_one]
      have within := nearest.within
      rw [abs_sub_comm] at within
      rw [moved, abs_mul, abs_of_pos scale]
      calc
        2 * 10 ^ 16 * (|n - q * 10 ^ (count - 1 - exponent)| * 10 ^ (exponent + 1 - count)) ≤
            2 * 10 ^ 16 * (1 / 2 * 10 ^ (exponent + 1 - count)) := by gcongr
        _ = 10 ^ (16 : ℤ) * 10 ^ (exponent + 1 - count) := by norm_num; ring
        _ = 10 ^ (16 + (exponent + 1 - count)) := ten_powers _ _ _ rfl
        _ ≤ 10 ^ exponent := zpow_le_zpow_right₀ (by norm_num) (by omega)
        _ ≤ q := lower

namespace Binary64

theorem five_units : (unitsPerOne : ℚ) * (Nat.pow 5 1074 : ℕ) = 10 ^ (1074 : ℤ) := by
  have five : ((Nat.pow 5 1074 : ℕ) : ℚ) = 5 ^ (1074 : ℤ) := by
    generalize finest : 1074 = places
    rw [cast_power, ← finest]
    norm_num
  rw [units_per_one, five, ← mul_zpow]
  norm_num

theorem exact_digits (code : ℕ) : (exactDigits code : ℚ) = magnitude code * 10 ^ (1074 : ℤ) := by
  rw [exactDigits, Nat.cast_mul, magnitude_units, ← five_units, ← mul_assoc,
    div_mul_cancel₀ _ (ne_of_gt units_per_one_pos)]

theorem scaled_nearest (places code : ℕ) :
    NearestWhole (magnitude code * 10 ^ places) (scaledBy places code) := by
  have positive : 0 < unitsPerOne := Nat.cast_pos.1 units_per_one_pos
  have nearest := round_half_even_nearest (units code * Nat.pow 10 places) unitsPerOne positive
  have same : ((units code * Nat.pow 10 places : ℕ) : ℚ) / unitsPerOne =
      magnitude code * 10 ^ places := by
    rw [Nat.cast_mul, magnitude_units, Nat.pow_eq, Nat.cast_pow, div_mul_eq_mul_div]
    rfl
  rwa [same] at nearest

theorem magnitude_pos (code : ℕ) (nonzero : code ≠ 0) : 0 < magnitude code := by
  have more := units_increase (Nat.pos_of_ne_zero nonzero)
  rw [magnitude_units]
  exact div_pos (Nat.cast_pos.2 more) units_per_one_pos

theorem magnitude_exact (code : ℕ) : magnitude code = exactDigits code * 10 ^ (-1074 : ℤ) := by
  rw [exact_digits, mul_assoc, ten_powers 1074 (-1074) 0 rfl, zpow_zero, mul_one]

theorem exact_pos (code : ℕ) (nonzero : code ≠ 0) : 0 < exactDigits code := by
  refine Nat.pos_of_ne_zero fun empty => ?_
  have positive := magnitude_pos code nonzero
  rw [magnitude_exact, empty, Nat.cast_zero, zero_mul] at positive
  exact absurd positive (lt_irrefl 0)

theorem magnitude_least (code : ℕ) (nonzero : code ≠ 0) : 10 ^ (-1074 : ℤ) ≤ magnitude code := by
  have one : (1 : ℚ) ≤ exactDigits code := by exact_mod_cast exact_pos code nonzero
  rw [magnitude_exact]
  exact le_mul_of_one_le_left (le_of_lt (ten_power_pos _)) one

theorem magnitude_most (code zeros : ℕ) (finite : code < codeLimit) (large : 1024 ≤ zeros) :
    magnitude code < 10 ^ (zeros : ℤ) := by
  have below := units_order code codeLimit finite
  have bound := Nat.cast_le (α := ℚ).2 (large_decimal 1 zeros Nat.one_ne_zero large)
  rw [Nat.one_mul, Nat.cast_mul, cast_power, Nat.cast_ofNat] at bound
  rw [magnitude_units, div_lt_iff₀ units_per_one_pos]
  exact lt_of_lt_of_le below bound

theorem read_of_rounded (count code : ℕ) (r : ℚ) (enough : 17 ≤ count)
    (rounded : RoundedTo count (magnitude code) r) : ReadAs code r := by
  have close := rounded_close count _ r enough rounded
  have whole : (units code : ℚ) = magnitude code * unitsPerOne := by
    rw [magnitude_units, div_mul_cancel₀ _ (ne_of_gt units_per_one_pos)]
  refine .of_digits code _ ?_
  rw [whole, ← sub_mul, abs_mul, abs_of_pos units_per_one_pos, ← mul_assoc]
  exact mul_le_mul_of_nonneg_right close (le_of_lt units_per_one_pos)

section Significant

variable (count code : ℕ) (nonzero : code ≠ 0)

include nonzero

-- The digits before a carry, and what is made of them.
theorem significant_digits : ∃ (leading : ℤ) (rounded : ℕ),
    10 ^ leading ≤ magnitude code ∧ magnitude code < 10 ^ (leading + 1) ∧
      NearestWhole (magnitude code * 10 ^ (count - 1 - leading)) rounded ∧
      significant count code =
        if rounded = 10 ^ count then ⟨10 ^ (count - 1), leading + 2 - count⟩
        else ⟨rounded, leading + 1 - count⟩ := by
  rw [significant, if_neg nonzero]
  extract_lets exact length rounded exponent
  have lower : 10 ^ (length - 1) ≤ exact :=
    Numeral.count_reached exact (Nat.pos_iff_ne_zero.1 (exact_pos code nonzero))
  have upper : exact < 10 ^ length := Numeral.below_count exact
  have nonempty : 0 < length := Numeral.count_pos exact
  have nearest : NearestWhole _ rounded :=
    round_half_even_nearest (exact * Nat.pow 10 count) _ (Nat.pow_pos (by decide))
  have scaled : ((exact * Nat.pow 10 count : ℕ) : ℚ) / (Nat.pow 10 length : ℕ) =
      magnitude code * 10 ^ ((count : ℤ) - 1 - ((length : ℤ) - 1075)) := by
    rw [magnitude_exact, Nat.cast_mul, cast_power, cast_power, mul_div_assoc, mul_assoc,
      ten_powers (-1074) _ (count - length) (by omega)]
    push_cast
    rw [← zpow_sub₀ (by norm_num)]
  rw [scaled] at nearest
  have finest := ten_power_pos (-1074)
  refine ⟨(length : ℤ) - 1075, rounded, ?_, ?_, nearest, ?_⟩
  · rw [magnitude_exact, ← ten_powers (length - 1 : ℕ) (-1074) (length - 1075) (by omega), zpow_natCast]
    refine mul_le_mul_of_nonneg_right ?_ (le_of_lt finest)
    exact_mod_cast lower
  · rw [magnitude_exact, ← ten_powers length (-1074) (length - 1075 + 1) (by omega), zpow_natCast]
    refine mul_lt_mul_of_pos_right ?_ finest
    exact_mod_cast upper
  · have place : exponent = (length : ℤ) - 1075 + 1 - count := by
      simp only [exponent, exactPlaces]
      omega
    have carried : exponent + 1 = (length : ℤ) - 1075 + 2 - count := by omega
    rw [← place, ← carried]
    rfl

theorem significant_nearest (nonempty : 0 < count) :
    let d := significant count code
    NearestWhole (magnitude code * 10 ^ (-d.exponent)) d.coefficient ∧
      RoundedDigits count (magnitude code) d.coefficient (d.exponent + count - 1) := by
  obtain ⟨leading, rounded, lower, upper, nearest, digits⟩ := significant_digits count code nonzero
  rw [digits]
  by_cases carry : rounded = 10 ^ count
  · have place : leading + 2 - count + count - 1 = leading + 1 := by omega
    rw [if_pos carry]
    dsimp only
    rw [place]
    exact digits_carried nonempty lower upper nearest carry
  · have place : leading + 1 - count + count - 1 = leading := by omega
    rw [if_neg carry]
    dsimp only
    rw [place]
    exact digits_kept nonempty lower upper nearest carry

theorem significant_exponent (finite : code < codeLimit) :
    ((significant count code).exponent + count - 1).natAbs ≤ 1074 := by
  obtain ⟨leading, rounded, lower, upper, nearest, digits⟩ := significant_digits count code nonzero
  have ten : (1 : ℚ) < 10 := by norm_num
  have most := magnitude_most code 1024 finite (Nat.le_refl _)
  have below := (zpow_lt_zpow_iff_right₀ ten).1 (lt_of_le_of_lt lower most)
  have above := (zpow_lt_zpow_iff_right₀ ten).1 (lt_of_le_of_lt (magnitude_least code nonzero) upper)
  rw [digits]
  split <;> dsimp only <;> omega

end Significant

theorem significant_below (count code : ℕ) (nonempty : 0 < count) :
    (significant count code).coefficient < 10 ^ count := by
  by_cases zero : code = 0
  · rw [zero]
    exact Nat.pow_pos (by decide)
  · exact (significant_nearest count code zero nonempty).2.most

theorem significant_rounded (count code : ℕ) (nonempty : 0 < count) :
    RoundedTo count (magnitude code) (significant count code).rational := by
  by_cases zero : code = 0
  · have nothing : magnitude code = 0 := by rw [magnitude_units, zero, units_zero, Nat.cast_zero, zero_div]
    have written : (significant count code).rational = 0 := by
      rw [significant, if_pos zero, Decimal.rational, Nat.cast_zero, zero_mul]
    rw [nothing, written]
    exact .zero
  · have rounded := (significant_nearest count code zero nonempty).2.rounded
    have place : (significant count code).exponent + count - 1 + 1 - count =
        (significant count code).exponent := by omega
    rwa [place] at rounded

end Binary64
end ArithTemplate
