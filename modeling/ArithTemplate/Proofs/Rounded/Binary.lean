import ArithTemplate.Binary64.Decimal
import ArithTemplate.Proofs.Rounded.Whole
import Mathlib.Algebra.Order.Ring.Abs
import Mathlib.Order.Monotone.Basic
import Mathlib.Tactic.Ring

set_option autoImplicit false

namespace ArithTemplate.Binary64

-- How far the next number is away.
theorem units_step (code : ℕ) : units (code + 1) = units code + 2 ^ (code / impliedBit - 1) := by
  have bit : impliedBit = 4503599627370496 := rfl
  simp only [units, Nat.pow_eq, bit]
  by_cases small : code + 1 < 2 * 4503599627370496
  · have first : code / 4503599627370496 - 1 = 0 := by omega
    rw [if_pos small, if_pos (by omega), first, pow_zero]
  · by_cases edge : code < 2 * 4503599627370496
    · have carry : code + 1 = 9007199254740992 := by omega
      have first : code / 4503599627370496 - 1 = 0 := by omega
      rw [if_neg small, if_pos edge, first, carry]
      omega
    · rw [if_neg small, if_neg edge]
      by_cases carry : (code + 1) % 4503599627370496 = 0
      · obtain ⟨exponent, next⟩ : ∃ k, code / 4503599627370496 = k + 1 :=
          ⟨code / 4503599627370496 - 1, by omega⟩
        have later : (code + 1) / 4503599627370496 = exponent + 2 := by omega
        have full : code % 4503599627370496 = 4503599627370495 := by omega
        rw [carry, later, next, full, Nat.add_sub_cancel, show exponent + 2 - 1 = exponent + 1 by rfl]
        ring
      · have same : (code + 1) / 4503599627370496 = code / 4503599627370496 := by omega
        have next : (code + 1) % 4503599627370496 = code % 4503599627370496 + 1 := by omega
        rw [same, next]
        ring

theorem units_increase : StrictMono units :=
  strictMono_nat_of_lt_succ fun code => by
    rw [units_step]
    exact Nat.lt_add_of_pos_right (Nat.pow_pos (by decide))

-- A number has at most 53 bits in steps of its own size.
theorem units_below (code : ℕ) : units code < 2 ^ 53 * 2 ^ (code / impliedBit - 1) := by
  have bit : impliedBit = 4503599627370496 := rfl
  simp only [units, Nat.pow_eq, bit]
  split
  · have first : code / 4503599627370496 - 1 = 0 := by omega
    rw [first]
    omega
  · exact Nat.mul_lt_mul_of_pos_right (by omega) (Nat.pow_pos (by decide))

theorem units_zero : units 0 = 0 := rfl

-- The numbers next to one are farther away than the sixteenth digit behind its first.
theorem units_apart (code other : ℕ) (different : other ≠ code) :
    (units code : ℚ) < 10 ^ 16 * |(units code : ℚ) - units other| := by
  rcases Nat.lt_or_gt_of_ne different with below | above
  · obtain ⟨last, rfl⟩ : ∃ last, code = last + 1 := ⟨code - 1, by omega⟩
    have step := units_step last
    have bound := units_below last
    have order : units other ≤ units last := units_increase.monotone (by omega)
    generalize 2 ^ (last / impliedBit - 1) = size at step bound
    have far : size ≤ units (last + 1) - units other := by omega
    have cast : ((size : ℕ) : ℚ) ≤ (units (last + 1) : ℚ) - units other := by
      rw [← Nat.cast_sub (by omega)]
      exact_mod_cast far
    have small : (units (last + 1) : ℚ) < (2 ^ 53 + 1) * size := by
      have whole : units (last + 1) < (2 ^ 53 + 1) * size := by
        rw [step, Nat.add_mul, Nat.one_mul]
        omega
      exact_mod_cast whole
    have wide := le_trans cast (le_abs_self _)
    nlinarith
  · have step := units_step code
    have bound := units_below code
    have order : units (code + 1) ≤ units other := units_increase.monotone above
    generalize 2 ^ (code / impliedBit - 1) = size at step bound
    have cast : ((size : ℕ) : ℚ) ≤ (units other : ℚ) - units code := by
      rw [← Nat.cast_sub (by omega)]
      exact_mod_cast (by omega : size ≤ units other - units code)
    have small : (units code : ℚ) < 2 ^ 53 * size := by exact_mod_cast bound
    have wide := le_trans cast (le_abs_self _)
    rw [abs_sub_comm] at wide
    nlinarith

-- The code of the number nearest to so many units; of two equally near ones, the even code.
structure Nearest (q : ℚ) (code : ℕ) : Prop where
  within : ∀ other, |q - units code| ≤ |q - units other|
  tie : ∀ other, other ≠ code → |q - units code| = |q - units other| → Even code

section Midpoints

variable {a b q : ℚ} (order : a < b)

include order

theorem nearer_above : |q - b| ≤ |q - a| ↔ a + b ≤ 2 * q := by
  rw [← sq_le_sq]
  constructor <;> intro <;> nlinarith

theorem nearer_below : |q - a| ≤ |q - b| ↔ 2 * q ≤ a + b := by
  rw [← sq_le_sq]
  constructor <;> intro <;> nlinarith

theorem equally_near : |q - a| = |q - b| ↔ 2 * q = a + b := by
  rw [le_antisymm_iff, nearer_above order, nearer_below order, ← le_antisymm_iff]

end Midpoints

theorem units_order (a b : ℕ) (order : a < b) : (units a : ℚ) < units b := by
  exact_mod_cast units_increase order

namespace Nearest

variable {p q r : ℚ} {code : ℕ}

theorem above_midpoint (nearest : Nearest q code) (other : ℕ) (below : other < code) :
    (units other : ℚ) + units code ≤ 2 * q :=
  (nearer_above (units_order _ _ below)).1 (nearest.within other)

theorem below_midpoint (nearest : Nearest q code) (other : ℕ) (above : code < other) :
    2 * q ≤ (units code : ℚ) + units other :=
  (nearer_below (units_order _ _ above)).1 (nearest.within other)

-- What is read as one number is an interval.
theorem between (left : Nearest p code) (right : Nearest r code) (lower : p ≤ q) (upper : q ≤ r) :
    Nearest q code where
  within other := by
    rcases Nat.lt_trichotomy other code with below | rfl | above
    · refine (nearer_above (units_order _ _ below)).2 ?_
      linarith [left.above_midpoint other below]
    · exact le_refl _
    · refine (nearer_below (units_order _ _ above)).2 ?_
      linarith [right.below_midpoint other above]
  tie other different same := by
    rcases Nat.lt_or_gt_of_ne different with below | above
    · have order := units_order _ _ below
      have middle := (equally_near order).1 same.symm
      refine left.tie other different ((equally_near order).2 ?_).symm
      linarith [left.above_midpoint other below]
    · have order := units_order _ _ above
      have middle := (equally_near order).1 same
      refine right.tie other different ((equally_near order).2 ?_)
      linarith [right.below_midpoint other above]

theorem not_above {other : ℕ} (left : Nearest q code) (right : Nearest q other) : other ≤ code := by
  by_contra above
  have order := Nat.lt_of_not_le above
  -- The quotient is the midpoint, both codes are even, and the odd one between them is nearer.
  have middle : 2 * q = (units code : ℚ) + units other :=
    le_antisymm (left.below_midpoint other order) (right.above_midpoint code order)
  have same := (equally_near (units_order _ _ order)).2 middle
  obtain ⟨half, evenCode⟩ := left.tie other (by omega) same
  obtain ⟨half', evenOther⟩ := right.tie code (by omega) same.symm
  have inside := units_order (code + 1) other (by omega)
  linarith [left.below_midpoint (code + 1) (by omega)]

theorem unique {other : ℕ} (left : Nearest q code) (right : Nearest q other) : code = other :=
  Nat.le_antisymm (not_above right left) (not_above left right)

-- Nearer than half a unit in the seventeenth digit is near enough.
theorem of_digits (code : ℕ) (q : ℚ) (close : 2 * 10 ^ 16 * |q - units code| ≤ units code) :
    Nearest q code := by
  have nearer (other : ℕ) (different : other ≠ code) : |q - units code| < |q - units other| := by
    have apart := units_apart code other different
    have path : |(units code : ℚ) - units other| ≤ |q - units code| + |q - units other| := by
      rw [abs_sub_comm q (units code)]
      exact abs_sub_le (units code : ℚ) q (units other)
    linarith
  constructor
  · intro other
    by_cases same : other = code
    · rw [same]
    · exact le_of_lt (nearer other same)
  · exact fun other different same => absurd same (ne_of_lt (nearer other different))

theorem of_units (code : ℕ) : Nearest (units code) code := by
  refine of_digits code _ ?_
  rw [sub_self, abs_zero, mul_zero]
  exact Nat.cast_nonneg _

end Nearest

-- Rounding to 53 bits gives a number again, also where it carries into the next power of two.
theorem units_shifted (shift rounded : ℕ) (upper : rounded ≤ 2 * impliedBit)
    (lower : shift = 0 ∨ impliedBit ≤ rounded) :
    units (shift * impliedBit + rounded) = rounded * 2 ^ shift := by
  have bit : impliedBit = 4503599627370496 := rfl
  simp only [units, Nat.pow_eq, bit] at *
  by_cases carry : rounded = 2 * 4503599627370496
  · have low : (shift * 4503599627370496 + rounded) % 4503599627370496 = 0 := by omega
    have high : (shift * 4503599627370496 + rounded) / 4503599627370496 = shift + 2 := by omega
    rw [if_neg (by omega), low, high, carry, show shift + 2 - 1 = shift + 1 by rfl]
    ring
  · by_cases first : shift = 0
    · rw [if_pos (by omega), first]
      ring
    · have low : (shift * 4503599627370496 + rounded) % 4503599627370496 =
          rounded - 4503599627370496 := by omega
      have high : (shift * 4503599627370496 + rounded) / 4503599627370496 = shift + 1 := by omega
      rw [if_neg (by omega), low, high, Nat.add_sub_cancel, Nat.add_sub_cancel' (by omega)]

-- From a power of two on, the numbers lie on the grid of the 53 bits that start there.
theorem units_on_grid (shift other : ℕ) :
    units other < impliedBit * 2 ^ shift ∨ ∃ multiple : ℕ, units other = multiple * 2 ^ shift := by
  have bit : impliedBit = 4503599627370496 := rfl
  by_cases reached : shift ≤ other / impliedBit - 1
  · right
    obtain ⟨more, exponent⟩ := Nat.exists_eq_add_of_le reached
    by_cases small : other < 2 * impliedBit
    · have first : shift = 0 := by
        rw [bit] at small reached
        omega
      exact ⟨other, by rw [units, if_pos small, first, pow_zero, Nat.mul_one]⟩
    · refine ⟨(impliedBit + other % impliedBit) * 2 ^ more, ?_⟩
      rw [units, if_neg small, Nat.pow_eq, exponent]
      ring
  · left
    have power : 2 ^ (other / impliedBit - 1) * 2 ≤ 2 ^ shift := by
      rw [← pow_succ]
      exact Nat.pow_le_pow_right (by decide) (by omega)
    have below := units_below other
    rw [bit]
    omega

-- The quotient in units of its 53rd bit, which is where it is rounded.
theorem log_bounds (whole : ℕ) :
    whole < 2 * impliedBit * 2 ^ (Nat.log2 whole - 52) ∧
      (Nat.log2 whole - 52 = 0 ∨ impliedBit * 2 ^ (Nat.log2 whole - 52) ≤ whole) := by
  have bit : impliedBit = 2 ^ 52 := rfl
  have upper : whole < 2 ^ (Nat.log2 whole + 1) := Nat.lt_log2_self
  rw [bit]
  constructor
  · refine lt_of_lt_of_le upper ?_
    rw [← pow_succ', ← pow_add]
    exact Nat.pow_le_pow_right (by decide) (by omega)
  · by_cases small : Nat.log2 whole ≤ 52
    · exact .inl (by omega)
    · right
      rw [← pow_add, Nat.add_sub_cancel' (by omega)]
      exact Nat.log2_self_le (by rintro rfl; exact small (by decide))

section Shifted

variable {q : ℚ} {shift rounded : ℕ} (nearest : NearestWhole (q / 2 ^ shift) rounded)
  (code_units : units (shift * impliedBit + rounded) = rounded * 2 ^ shift)

include nearest code_units

theorem nearest_on_multiples (other multiple : ℕ) (on : units other = multiple * 2 ^ shift) :
    |q - units (shift * impliedBit + rounded)| ≤ |q - units other| ∧
      (other ≠ shift * impliedBit + rounded →
        |q - units (shift * impliedBit + rounded)| = |q - units other| → Even rounded) := by
  have size : (0 : ℚ) < 2 ^ shift := by positivity
  have distance (n code : ℕ) (on : units code = n * 2 ^ shift) :
      |q - units code| = |q / 2 ^ shift - n| * 2 ^ shift := by
    have factor : q - units code = (q / 2 ^ shift - n) * 2 ^ shift := by
      rw [sub_mul, div_mul_cancel₀ _ (ne_of_gt size), on]
      push_cast
      rfl
    rw [factor, abs_mul, abs_of_pos size]
  rw [distance _ _ code_units, distance _ _ on]
  constructor
  · exact mul_le_mul_of_nonneg_right (nearest.nearest multiple) (le_of_lt size)
  · intro different same
    refine nearest.nearest_tie multiple ?_ (mul_right_cancel₀ (ne_of_gt size) same)
    rintro rfl
    exact different (units_increase.injective (on.trans code_units.symm))

-- What is not on the grid is smaller than all that is.
theorem nearest_above_start (start : (impliedBit : ℚ) * 2 ^ shift ≤ q) (other : ℕ)
    (below : units other < impliedBit * 2 ^ shift) :
    |q - units (shift * impliedBit + rounded)| < |q - units other| := by
  have first : units (shift * impliedBit + impliedBit) = impliedBit * 2 ^ shift :=
    units_shifted shift impliedBit (by decide) (.inr (Nat.le_refl _))
  have nearer := (nearest_on_multiples nearest code_units _ impliedBit first).1
  refine lt_of_le_of_lt nearer ?_
  have smaller : (units other : ℚ) < impliedBit * 2 ^ shift := by exact_mod_cast below
  rw [first]
  push_cast
  rw [abs_of_nonneg (by linarith), abs_of_nonneg (by linarith)]
  linarith

theorem nearest_of_shifted (start : shift = 0 ∨ (impliedBit : ℚ) * 2 ^ shift ≤ q) :
    Nearest q (shift * impliedBit + rounded) := by
  have evenCode : Even rounded → Even (shift * impliedBit + rounded) :=
    ((show Even impliedBit by decide).mul_left shift).add
  have multiples := nearest_on_multiples nearest code_units
  have cases (other : ℕ) : (∃ multiple, units other = multiple * 2 ^ shift) ∨
      |q - units (shift * impliedBit + rounded)| < |q - units other| := by
    rcases units_on_grid shift other with below | on
    · rcases start with first | start
      · exact .inl ⟨units other, by rw [first, pow_zero, Nat.mul_one]⟩
      · exact .inr (nearest_above_start nearest code_units start other below)
    · exact .inl on
  constructor
  · intro other
    rcases cases other with ⟨multiple, on⟩ | less
    · exact (multiples other multiple on).1
    · exact le_of_lt less
  · intro other different same
    rcases cases other with ⟨multiple, on⟩ | less
    · exact evenCode ((multiples other multiple on).2 different same)
    · exact absurd same (ne_of_lt less)

end Shifted

theorem nearest_code_nearest (num den : ℕ) (positive : 0 < den) :
    Nearest (num / den) (nearestCode num den) := by
  obtain ⟨upper, start⟩ := log_bounds (num / den)
  rw [nearestCode]
  generalize Nat.log2 (num / den) - 52 = shift at upper start ⊢
  have scale : 0 < den * Nat.pow 2 shift := Nat.mul_pos positive (Nat.pow_pos (by decide))
  have nearest := round_half_even_nearest num (den * Nat.pow 2 shift) scale
  generalize roundHalfEven num (den * Nat.pow 2 shift) = rounded at nearest ⊢
  have quotient : (num : ℚ) / (den * Nat.pow 2 shift : ℕ) = num / den / 2 ^ shift := by
    rw [Nat.pow_eq, Nat.cast_mul, div_div]
    push_cast
    rfl
  have size : (0 : ℚ) < 2 ^ shift := by positivity
  have below : (num : ℚ) / den ≤ (2 * impliedBit * 2 ^ shift : ℕ) := by
    rw [div_le_iff₀ (Nat.cast_pos.2 positive)]
    exact_mod_cast le_of_lt ((Nat.div_lt_iff_lt_mul positive).1 upper)
  have atStart : shift = 0 ∨ (impliedBit : ℚ) * 2 ^ shift ≤ num / den := by
    refine start.imp id fun start => ?_
    rw [le_div_iff₀ (Nat.cast_pos.2 positive)]
    exact_mod_cast (Nat.le_div_iff_mul_le positive).1 start
  rw [quotient] at nearest
  have most : rounded ≤ 2 * impliedBit := by
    refine nearest.at_most ?_
    rw [div_le_iff₀ size]
    exact_mod_cast below
  have least : shift = 0 ∨ impliedBit ≤ rounded := by
    refine atStart.imp id fun start => nearest.at_least ?_
    rwa [le_div_iff₀ size]
  exact nearest_of_shifted nearest (units_shifted shift rounded most least) atStart

theorem nearest_code_iff (num den code : ℕ) (positive : 0 < den) :
    nearestCode num den = code ↔ Nearest (num / den) code := by
  have nearest := nearest_code_nearest num den positive
  constructor
  · rintro rfl
    exact nearest
  · exact nearest.unique

end ArithTemplate.Binary64
