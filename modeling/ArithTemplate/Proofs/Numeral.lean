import ArithTemplate.Decimal.Numeral
import Mathlib.Algebra.Ring.Nat

set_option autoImplicit false

namespace ArithTemplate.Numeral

theorem value_of_nat (n : Nat) : value (ofNat n) = n := Nat.ofDigitChars_ten_toDigits

theorem value_padded (width n : Nat) : value (padded width n) = n := by
  have zeros : ∀ k, Nat.ofDigitChars 10 (List.replicate k '0') 0 = 0 := fun k => by
    rw [Nat.ofDigitChars_replicate_zero, Nat.mul_zero]
  change Nat.ofDigitChars 10 (padded width n) 0 = n
  rw [padded, Nat.ofDigitChars_append, zeros]
  exact value_of_nat n

theorem padded_digits (width n : Nat) : ∀ c ∈ padded width n, c.isDigit = true := by
  intro c member
  rcases List.mem_append.1 member with zero | digit
  · cases List.eq_of_mem_replicate zero
    rfl
  · exact isDigit_of_mem_ofNat digit

theorem length_padded (width n : Nat) : width ≤ (padded width n).length := by
  simp only [padded, List.length_append, List.length_replicate]
  omega

theorem value_append (s t : Text) : value (s ++ t) = 10 ^ t.length * value s + value t := by
  change Nat.ofDigitChars 10 (s ++ t) 0 = _
  rw [Nat.ofDigitChars_append, Nat.ofDigitChars_eq_ofDigitChars_zero]
  rfl

theorem value_cons (c : Char) (rest : Text) :
    value (c :: rest) = 10 ^ rest.length * (c.toNat - '0'.toNat) + value rest := by
  have single : value [c] = c.toNat - '0'.toNat := by simp [value]
  rw [← List.singleton_append, value_append, single]

theorem value_zeros (count : Nat) : value (List.replicate count '0') = 0 := by
  change Nat.ofDigitChars 10 (List.replicate count '0') 0 = 0
  rw [Nat.ofDigitChars_replicate_zero, Nat.mul_zero]

theorem digit_below (c : Char) (digit : c.isDigit = true) : c.toNat - '0'.toNat < 10 := by
  have bounds : '0' ≤ c ∧ c ≤ '9' := by
    simpa [Char.isDigit, Char.le_def] using digit
  have upper : c.toNat ≤ '9'.toNat := bounds.2
  have zero : '0'.toNat = 48 := rfl
  have nine : '9'.toNat = 57 := rfl
  omega

theorem value_below (s : Text) (digits : ∀ c ∈ s, c.isDigit = true) : value s < 10 ^ s.length := by
  induction s with
  | nil => decide
  | cons c rest hypothesis =>
      have first := digit_below c (digits c List.mem_cons_self)
      have later := hypothesis fun d member => digits d (List.mem_cons_of_mem c member)
      rw [value_cons, List.length_cons, Nat.pow_succ]
      have bound := Nat.mul_le_mul_left (10 ^ rest.length) (Nat.le_of_lt_succ first)
      omega

theorem length_of_nat_le_iff (n k : Nat) (nonempty : 0 < k) : (ofNat n).length ≤ k ↔ n < 10 ^ k :=
  Nat.length_toDigits_le_iff (by decide) nonempty

-- Only zero is written with a zero in front.
theorem of_nat_head (n : Nat) (nonzero : n ≠ 0) : (ofNat n).head? ≠ some '0' := by
  intro head
  obtain ⟨rest, shape⟩ := List.head?_eq_some_iff.1 head
  have digits : ∀ c ∈ rest, c.isDigit = true := fun c member =>
    isDigit_of_mem_ofNat (n := n) (by rw [shape]; exact List.mem_cons_of_mem _ member)
  have same : value rest = n := by
    have whole := value_of_nat n
    rw [shape, ← List.singleton_append, value_append] at whole
    have zero : value ['0'] = 0 := rfl
    rwa [zero, Nat.mul_zero, Nat.zero_add] at whole
  have small := value_below rest digits
  rw [same] at small
  cases rest with
  | nil => exact nonzero (by simpa [value] using same.symm)
  | cons c tail =>
      have shorter := (length_of_nat_le_iff n _ (Nat.succ_pos _)).2 small
      rw [shape, List.length_cons] at shorter
      exact absurd shorter (Nat.not_succ_le_self _)

theorem padded_length (width n : Nat) : (padded width n).length = max width (ofNat n).length := by
  rw [padded, List.length_append, List.length_replicate]
  omega

theorem padded_head (width n : Nat) (nonempty : 0 < width) (wide : width < (padded width n).length) :
    (padded width n).head? ≠ some '0' := by
  have long : width < (ofNat n).length := by
    rw [padded_length] at wide
    omega
  have unpadded : width - (ofNat n).length = 0 := by omega
  rw [padded, unpadded, List.replicate_zero, List.nil_append]
  refine of_nat_head n ?_
  rintro rfl
  have single : (ofNat 0).length = 1 := rfl
  omega

theorem count_le_iff (n k : Nat) (nonempty : 0 < k) : count n ≤ k ↔ n < 10 ^ k := by
  rw [count_eq_length]
  exact Nat.length_toDigits_le_iff (by decide) nonempty

theorem count_pos (n : Nat) : 0 < count n := by
  rw [count_eq_length]
  exact Nat.length_toDigits_pos

theorem below_count (n : Nat) : n < 10 ^ count n := (count_le_iff n _ (count_pos n)).1 (Nat.le_refl _)

theorem count_reached (n : Nat) (nonzero : n ≠ 0) : 10 ^ (count n - 1) ≤ n := by
  by_cases single : count n = 1
  · rw [single]
    exact Nat.pos_of_ne_zero nonzero
  · have positive := count_pos n
    refine Nat.le_of_not_lt fun small => ?_
    have fewer := (count_le_iff n (count n - 1) (by omega)).2 small
    omega

theorem first_digit (n : Nat) : n / 10 ^ (count n - 1) < 10 := by
  have below := below_count n
  rw [← Nat.sub_add_cancel (count_pos n), Nat.pow_succ'] at below
  exact (Nat.div_lt_iff_lt_mul (Nat.pow_pos (by decide))).2 below

end ArithTemplate.Numeral
