import ArithTemplate.Rounding
import Mathlib.Algebra.Order.Field.Rat
import Mathlib.Algebra.Group.Nat.Even
import Mathlib.Data.Nat.Cast.Order.Ring
import Mathlib.Tactic.FieldSimp
import Mathlib.Tactic.Linarith

set_option autoImplicit false

namespace ArithTemplate

-- The whole number nearest to a quotient; of two equally near ones, the even one.
structure NearestWhole (q : ℚ) (n : ℕ) : Prop where
  within : |q - n| ≤ 1 / 2
  tie : |q - n| = 1 / 2 → Even n

namespace NearestWhole

theorem of_close (q : ℚ) (n : ℕ) (close : |q - n| < 1 / 2) : NearestWhole q n where
  within := le_of_lt close
  tie half := absurd half (ne_of_lt close)

variable {q : ℚ} {m n : ℕ}

theorem not_below (left : NearestWhole q m) (right : NearestWhole q n) : n ≤ m := by
  by_contra below
  have step : (m : ℚ) + 1 ≤ n := by exact_mod_cast Nat.lt_of_not_le below
  have leftClose := abs_le.1 left.within
  have rightClose := abs_le.1 right.within
  -- The number lies halfway between two neighbours, of which only one is even.
  have leftHalf : q - m = 1 / 2 := by linarith
  have rightHalf : q - n = -(1 / 2) := by linarith
  have neighbours : n = m + 1 := by
    have same : (n : ℚ) = m + 1 := by linarith
    exact_mod_cast same
  have leftEven := left.tie (by rw [leftHalf, abs_of_pos (by norm_num)])
  have rightEven := right.tie (by rw [rightHalf, abs_neg, abs_of_pos (by norm_num)])
  rw [neighbours, Nat.even_add_one] at rightEven
  exact rightEven leftEven

theorem unique (left : NearestWhole q m) (right : NearestWhole q n) : m = n :=
  Nat.le_antisymm (not_below right left) (not_below left right)

theorem at_least (nearest : NearestWhole q n) (bound : (m : ℚ) ≤ q) : m ≤ n := by
  have close := abs_le.1 nearest.within
  have less : (m : ℚ) < n + 1 := by linarith
  exact Nat.lt_add_one_iff.1 (by exact_mod_cast less)

theorem at_most (nearest : NearestWhole q n) (bound : q ≤ m) : n ≤ m := by
  have close := abs_le.1 nearest.within
  have less : (n : ℚ) < m + 1 := by linarith
  exact Nat.lt_add_one_iff.1 (by exact_mod_cast less)

theorem apart (different : m ≠ n) : (1 : ℚ) ≤ |q - n| + |q - m| := by
  have whole : (1 : ℤ) ≤ |(n : ℤ) - m| := Int.one_le_abs (by omega)
  have step : (1 : ℚ) ≤ |(n : ℚ) - m| := by exact_mod_cast whole
  have path := abs_sub_le (n : ℚ) q m
  rw [abs_sub_comm (n : ℚ) q] at path
  linarith

theorem nearest (nearest : NearestWhole q n) (m : ℕ) : |q - n| ≤ |q - m| := by
  by_cases same : m = n
  · rw [same]
  · linarith [nearest.within, apart (q := q) same]

theorem nearest_tie (nearest : NearestWhole q n) (m : ℕ) (different : m ≠ n)
    (same : |q - n| = |q - m|) : Even n := by
  have far := apart (q := q) different
  refine nearest.tie (le_antisymm nearest.within ?_)
  linarith

end NearestWhole

theorem quotient_split (num den : ℕ) (positive : 0 < den) :
    (num : ℚ) / den = (num / den : ℕ) + (num % den : ℕ) / den := by
  have nonzero : (den : ℚ) ≠ 0 := by exact_mod_cast Nat.pos_iff_ne_zero.1 positive
  have split : ((den * (num / den) + num % den : ℕ) : ℚ) = num := by rw [Nat.div_add_mod]
  rw [Nat.cast_add, Nat.cast_mul] at split
  field_simp
  exact split.symm

theorem round_half_even_nearest (num den : ℕ) (positive : 0 < den) :
    NearestWhole (num / den) (roundHalfEven num den) := by
  have den_pos : (0 : ℚ) < den := by exact_mod_cast positive
  have split := quotient_split num den positive
  have part := Nat.mod_lt num positive
  rw [roundHalfEven]
  generalize num / den = quotient at split ⊢
  generalize num % den = remainder at split part ⊢
  have nonneg : (0 : ℚ) ≤ remainder / den := div_nonneg (Nat.cast_nonneg _) (Nat.cast_nonneg _)
  by_cases less : 2 * remainder < den
  · have half : (remainder : ℚ) / den < 1 / 2 := by
      rw [div_lt_iff₀ den_pos]
      have cast : (2 * remainder : ℚ) < den := by exact_mod_cast less
      linarith
    rw [if_pos less]
    refine .of_close _ _ ?_
    rw [split, add_sub_cancel_left, abs_of_nonneg nonneg]
    exact half
  · by_cases more : den < 2 * remainder
    · have half : 1 / 2 < (remainder : ℚ) / den := by
        rw [lt_div_iff₀ den_pos]
        have cast : (den : ℚ) < 2 * remainder := by exact_mod_cast more
        linarith
      have whole : (remainder : ℚ) / den < 1 := by
        rw [div_lt_iff₀ den_pos, one_mul]
        exact_mod_cast part
      rw [if_neg less, if_pos more]
      refine .of_close _ _ (abs_lt.2 ⟨?_, ?_⟩)
      · push_cast
        linarith
      · push_cast
        linarith
    · have half : (remainder : ℚ) / den = 1 / 2 := by
        rw [div_eq_iff (ne_of_gt den_pos)]
        have cast : (2 * remainder : ℚ) = den := by exact_mod_cast (by omega : 2 * remainder = den)
        linarith
      rw [if_neg less, if_neg more, split, half]
      rcases Nat.even_or_odd quotient with even | odd
      · rw [Nat.even_iff.1 even, Nat.add_zero]
        constructor
        · rw [add_sub_cancel_left, abs_of_pos (by norm_num)]
        · exact fun _ => even
      · rw [Nat.odd_iff.1 odd]
        constructor
        · rw [Nat.cast_add, add_sub_add_left_eq_sub, abs_le]
          norm_num
        · exact fun _ => odd.add_one

end ArithTemplate
