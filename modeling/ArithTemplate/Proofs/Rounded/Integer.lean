import ArithTemplate.Binary64.Arithmetic
import ArithTemplate.Proofs.Rounded.Shortest
import Mathlib.Data.Nat.Factorization.Basic

set_option autoImplicit false

namespace ArithTemplate.Binary64

-- Whole numbers of at most 53 bits, and the next power of two, are numbers.
def wholeLimit : ℕ := 2 ^ 53

def signed (negative : Bool) (n : ℕ) : ℤ := if negative then -n else n

theorem signed_abs (negative : Bool) (n : ℕ) : (signed negative n).natAbs = n := by
  cases negative <;> simp [signed]

theorem signed_neg (negative : Bool) (n : ℕ) : signed (!negative) n = -signed negative n := by
  cases negative <;> simp [signed]

theorem signed_mul (a b : Bool) (m n : ℕ) :
    signed (a != b) (m * n) = signed a m * signed b n := by
  cases a <;> cases b <;> simp [signed]

theorem signed_sign (z : ℤ) : signed (decide (z < 0)) z.natAbs = z := by
  by_cases negative : z < 0
  · simp only [signed, negative]
    simp only [decide_true, if_true]
    omega
  · simp only [signed, negative]
    simp only [decide_false, Bool.false_eq_true, if_false]
    omega

-- Shifted to 53 bits where it has fewer, a whole number is a fraction with its exponent.
theorem whole_code (n : ℕ) (small : n ≤ wholeLimit) :
    ∃ code : Fin 0x7FF0000000000000, units code = n * unitsPerOne := by
  have bit : impliedBit = 2 ^ 52 := rfl
  by_cases zero : n = 0
  · exact ⟨0, by rw [zero, Nat.zero_mul]; rfl⟩
  · let lift := 52 - Nat.log2 n
    have lower : 2 ^ Nat.log2 n ≤ n := Nat.log2_self_le zero
    have upper : n < 2 ^ (Nat.log2 n + 1) := Nat.lt_log2_self
    have most : n * 2 ^ lift ≤ 2 * impliedBit := by
      by_cases short : Nat.log2 n ≤ 52
      · calc
          n * 2 ^ lift ≤ 2 ^ (Nat.log2 n + 1) * 2 ^ lift := Nat.mul_le_mul_right _ (le_of_lt upper)
          _ = 2 ^ 53 := by rw [← pow_add]; congr 1; omega
      · have none : lift = 0 := by omega
        rw [none, pow_zero, Nat.mul_one]
        exact small
    have least : impliedBit ≤ n * 2 ^ lift := by
      calc
        impliedBit = 2 ^ 52 := bit
        _ ≤ 2 ^ (Nat.log2 n + lift) := Nat.pow_le_pow_right (by decide) (by omega)
        _ = 2 ^ Nat.log2 n * 2 ^ lift := pow_add ..
        _ ≤ n * 2 ^ lift := Nat.mul_le_mul_right _ lower
    have value := units_shifted (1074 - lift) (n * 2 ^ lift) most (.inr least)
    have inside : (1074 - lift) * impliedBit + n * 2 ^ lift < 0x7FF0000000000000 := by
      have shifted := Nat.mul_le_mul_right impliedBit (Nat.sub_le 1074 lift)
      have number : impliedBit = 4503599627370496 := rfl
      omega
    refine ⟨⟨_, inside⟩, value.trans ?_⟩
    have places : lift + (1074 - lift) = 1074 := by omega
    rw [Nat.mul_assoc, ← pow_add, places]
    unfold unitsPerOne
    generalize 1074 = finest
    rfl

-- Above that limit come the even ones, as fractions of 53 bits again.
theorem even_code (n : ℕ) (least : impliedBit ≤ n) (most : n ≤ 2 * impliedBit) :
    ∃ code, units code = 2 * n * unitsPerOne := by
  refine ⟨_, (units_shifted 1075 n most (.inr least)).trans ?_⟩
  unfold unitsPerOne
  rw [show 1075 = 1074 + 1 by rfl]
  generalize 1074 = finest
  rw [Nat.pow_eq]
  ring

-- What is a number already is not changed by rounding.
theorem of_ratio_exact (negative : Bool) (num den : ℕ) (code : Fin 0x7FF0000000000000)
    (positive : 0 < den) (exact : num = units code * den) :
    ofRatio negative num den = .finite negative code := by
  have nonzero : (den : ℚ) ≠ 0 := Nat.cast_ne_zero.2 (Nat.pos_iff_ne_zero.1 positive)
  refine (of_ratio_iff negative negative num den code positive).2 ⟨rfl, ?_⟩
  rw [exact, Nat.cast_mul, mul_div_cancel_right₀ _ nonzero]
  exact .of_units code

-- A number that is whole.
def IsWhole (x : Binary64) (z : ℤ) : Prop :=
  ∃ (negative : Bool) (n : ℕ) (code : Fin 0x7FF0000000000000),
    x = .finite negative code ∧ units code = n * unitsPerOne ∧ signed negative n = z

theorem signed_units (negative : Bool) (n code : ℕ) (whole : units code = n * unitsPerOne) :
    signedUnits negative code = signed negative n * unitsPerOne := by
  rw [signedUnits, signed, whole]
  generalize unitsPerOne = unit
  cases negative <;> simp

theorem whole_neg (x : Binary64) (a : ℤ) (whole : IsWhole x a) : IsWhole x.neg (-a) := by
  obtain ⟨negative, n, code, rfl, value, rfl⟩ := whole
  exact ⟨!negative, n, code, rfl, value, signed_neg negative n⟩

section Operations

variable (x y : Binary64) (a b : ℤ) (left : IsWhole x a) (right : IsWhole y b)

include left right

theorem whole_add (small : (a + b).natAbs ≤ wholeLimit) : IsWhole (x.add y) (a + b) := by
  obtain ⟨s, m, code, rfl, value, rfl⟩ := left
  obtain ⟨t, n, code', rfl, value', rfl⟩ := right
  have unit : 0 < unitsPerOne := Nat.cast_pos.1 units_per_one_pos
  have sum : signedUnits s code + signedUnits t code' = (signed s m + signed t n) * unitsPerOne := by
    rw [signed_units s m code value, signed_units t n code' value', add_mul]
  generalize signed s m + signed t n = z at small sum ⊢
  rw [add, sum]
  by_cases zero : z = 0
  · rw [zero, zero_mul]
    exact ⟨s && t, 0, 0, rfl, by rw [Nat.zero_mul]; rfl, by cases s <;> cases t <;> rfl⟩
  · obtain ⟨code, whole⟩ := whole_code z.natAbs small
    have nonzero : z * unitsPerOne ≠ 0 := mul_ne_zero zero (by exact_mod_cast ne_of_gt unit)
    have sign : decide (z * unitsPerOne < 0) = decide (z < 0) := by
      have more : (0 : ℤ) < unitsPerOne := by exact_mod_cast unit
      rw [decide_eq_decide]
      exact ⟨fun less => neg_of_mul_neg_left less more.le, fun less => mul_neg_of_neg_of_pos less more⟩
    have size : (z * unitsPerOne).natAbs = units code * 1 := by
      rw [Int.natAbs_mul, Int.natAbs_natCast, whole, Nat.mul_one]
    rw [if_neg nonzero, sign, of_ratio_exact _ _ _ code Nat.one_pos size]
    exact ⟨_, z.natAbs, code, rfl, whole, signed_sign z⟩

theorem whole_mul (small : (a * b).natAbs ≤ wholeLimit) : IsWhole (x.mul y) (a * b) := by
  obtain ⟨s, m, code, rfl, value, rfl⟩ := left
  obtain ⟨t, n, code', rfl, value', rfl⟩ := right
  have unit : 0 < unitsPerOne := Nat.cast_pos.1 units_per_one_pos
  rw [Int.natAbs_mul, signed_abs, signed_abs] at small
  obtain ⟨product, whole⟩ := whole_code (m * n) small
  have exact : units code * units code' = units product * unitsPerOne := by
    rw [value, value', whole]
    ring
  rw [mul, of_ratio_exact _ _ _ product unit exact]
  exact ⟨_, m * n, product, rfl, whole, signed_mul s t m n⟩

end Operations

theorem whole_sub (x y : Binary64) (a b : ℤ) (left : IsWhole x a) (right : IsWhole y b)
    (small : (a - b).natAbs ≤ wholeLimit) : IsWhole (x.sub y) (a - b) := by
  rw [sub_eq_add_neg] at small ⊢
  exact whole_add x y.neg a (-b) left (whole_neg y b right) small

section Written

variable (code n : ℕ) (whole : units code = n * unitsPerOne)

include whole

theorem whole_magnitude : magnitude code = n := by
  rw [magnitude_units, whole, Nat.cast_mul, mul_div_cancel_right₀ _ (ne_of_gt units_per_one_pos)]

theorem whole_read : ReadAs code n := whole_magnitude code n whole ▸ read_exact code

-- Of the whole numbers that end with a zero, a number is read from itself only. The odd number above
-- the largest of them is as near to it as to the next number.
theorem whole_alone (k : ℕ) (small : n ≤ wholeLimit) (read : ReadAs code k) (ten : k % 10 = 0) :
    k = n := by
  have unit : 0 < unitsPerOne := Nat.cast_pos.1 units_per_one_pos
  have limit : wholeLimit = 9007199254740992 := rfl
  have same (m other : ℕ) (value : units other = m * unitsPerOne) (read : ReadAs code m) : m = n := by
    have unique := Nearest.unique read (whole_read other m value)
    rw [unique, value] at whole
    exact Nat.eq_of_mul_eq_mul_right unit whole
  by_cases inside : k ≤ wholeLimit
  · obtain ⟨other, value⟩ := whole_code k inside
    exact same k other value read
  · obtain ⟨next, value⟩ := even_code 4503599627370497 (by decide) (by decide)
    have lower : (n : ℚ) ≤ (2 * 4503599627370497 : ℕ) := Nat.cast_le.2 (by omega)
    have upper : ((2 * 4503599627370497 : ℕ) : ℚ) ≤ k := Nat.cast_le.2 (by omega)
    have between := read_between code n _ k (whole_read code n whole) read lower upper
    have reached := same _ next value between
    omega

theorem whole_exact : exactDigits code = n * 10 ^ exactPlaces := by
  rw [exactDigits, whole]
  unfold unitsPerOne exactPlaces
  generalize 1074 = finest
  rw [Nat.mul_assoc, Nat.pow_eq, Nat.pow_eq, ← mul_pow,
    show 2 * 5 = 10 by rfl]

end Written

theorem neighbour_exact (tie : Tie) (code m scale : ℕ) (exact : exactDigits code = m * 10 ^ scale) :
    neighbour tie code scale = some m := by
  have power : 0 < Nat.pow 10 scale := Nat.pow_pos (by decide)
  have itself : readsBack code m scale = true := by
    have read := read_exact code
    rwa [magnitude_on_grid, exact, ← on_grid_whole, ← reads_back_read] at read
  have lower : exactDigits code / Nat.pow 10 scale = m := by
    rw [exact]
    exact Nat.mul_div_cancel m power
  have part : exactDigits code % Nat.pow 10 scale = 0 := by
    rw [exact]
    exact Nat.mul_mod_left m _
  rw [neighbour]
  simp only [lower, itself, part, if_pos power, Nat.mul_zero]
  split <;> simp_all

-- A search that meets a decimal on one grid and none on the coarser ones ends there.
theorem coarsest_at (tie : Tie) (code m scale places : ℕ) (positive : 0 < scale)
    (found : neighbour tie code scale = some m)
    (coarser : ∀ places, neighbour tie code (scale + places + 1) = none) :
    coarsest tie code (scale + places) = (m, scale) := by
  induction places with
  | zero =>
      obtain ⟨finer, rfl⟩ := Nat.exists_eq_add_one_of_ne_zero (Nat.pos_iff_ne_zero.1 positive)
      rw [Nat.add_zero, coarsest, found]
  | succ places hypothesis =>
      rw [← Nat.add_assoc, coarsest, coarser places]
      exact hypothesis

section Text

variable (code n : ℕ) (whole : units code = n * unitsPerOne) (small : n ≤ wholeLimit)

include whole small

theorem whole_not_coarser (tie : Tie) (m zeros : ℕ) (digits : n = m * 10 ^ zeros) (last : m % 10 ≠ 0)
    (places : ℕ) : neighbour tie code (exactPlaces + zeros + places + 1) = none := by
  rcases neighbour_cases tie code (exactPlaces + zeros + places + 1) with ⟨k, _, read, _⟩ | ⟨none, _⟩
  · exfalso
    have value : onGrid k (exactPlaces + zeros + places + 1) = (k * 10 ^ (zeros + places + 1) : ℕ) := by
      have place : ((exactPlaces + zeros + places + 1 : ℕ) : ℤ) - 1074 = (zeros + places + 1 : ℕ) := by
        unfold exactPlaces
        omega
      rw [onGrid, place, zpow_natCast]
      push_cast
      rfl
    have ten : k * 10 ^ (zeros + places + 1) % 10 = 0 := by
      rw [pow_succ, ← Nat.mul_assoc]
      exact Nat.mul_mod_left _ 10
    rw [value] at read
    have same := whole_alone code n whole _ small read ten
    have power : 0 < 10 ^ zeros := Nat.pow_pos (by decide)
    have front : m = k * 10 ^ places * 10 := by
      refine Nat.eq_of_mul_eq_mul_right power ?_
      rw [← digits, ← same]
      ring
    rw [front] at last
    exact last (Nat.mul_mod_left _ 10)
  · exact none

theorem whole_shortest (tie : Tie) (nonzero : n ≠ 0) : (shortest tie code).plain = Numeral.ofNat n := by
  obtain ⟨zeros, m, last, digits⟩ := Nat.exists_eq_pow_mul_and_not_dvd nonzero 10 (by decide)
  rw [Nat.mul_comm] at digits
  replace last : m % 10 ≠ 0 := fun zero => last (Nat.dvd_of_mod_eq_zero zero)
  have exact : exactDigits code = m * 10 ^ (exactPlaces + zeros) := by
    rw [whole_exact code n whole, digits, Nat.mul_assoc, ← pow_add, Nat.add_comm]
  have some_ : code ≠ 0 := by
    rintro rfl
    rw [units_zero] at whole
    have unit : 0 < unitsPerOne := Nat.cast_pos.1 units_per_one_pos
    exact absurd whole.symm (Nat.mul_ne_zero nonzero (Nat.pos_iff_ne_zero.1 unit))
  have start : 0 < exactPlaces + zeros := by
    unfold exactPlaces
    omega
  obtain ⟨places, first⟩ : ∃ places,
      Numeral.count (exactDigits code) - 1 = exactPlaces + zeros + places := by
    have front : 1 ≤ m := Nat.pos_of_ne_zero fun zero => last (by rw [zero])
    have long : ¬ Numeral.count (exactDigits code) ≤ exactPlaces + zeros := by
      rw [Numeral.count_le_iff _ _ start, exact]
      exact Nat.not_lt.2 (Nat.le_mul_of_pos_left _ front)
    exact ⟨_, (Nat.add_sub_cancel' (by omega)).symm⟩
  have found := coarsest_at tie code m _ places start (neighbour_exact tie code m _ exact)
    (whole_not_coarser code n whole small tie m zeros digits last)
  rw [← first] at found
  have plain : m ≠ 10 := by
    rintro rfl
    exact last rfl
  have place : ((exactPlaces + zeros : ℕ) : ℤ) - exactPlaces = Int.ofNat zeros := by
    rw [Nat.cast_add, add_sub_cancel_left]
    rfl
  rw [shortest_found tie code m _ some_ found, if_neg plain, place, Decimal.plain, digits]
  rfl

end Text

-- The rational number a finite number stands for.
def Equals (x : Binary64) (q : ℚ) : Prop :=
  ∃ (negative : Bool) (code : Fin 0x7FF0000000000000),
    x = .finite negative code ∧ q = if negative then -magnitude code else magnitude code

theorem whole_equals (x : Binary64) (z : ℤ) (whole : IsWhole x z) : x.Equals z := by
  obtain ⟨negative, n, code, rfl, value, rfl⟩ := whole
  refine ⟨negative, code, rfl, ?_⟩
  rw [whole_magnitude code n value]
  cases negative <;> simp [signed]

theorem whole_text (x : Binary64) (z : ℤ) (whole : IsWhole x z) (small : z.natAbs ≤ wholeLimit)
    (nonzero : z ≠ 0) : x.text = (if z < 0 then ['-'] else []) ++ Numeral.ofNat z.natAbs := by
  obtain ⟨negative, n, code, rfl, value, rfl⟩ := whole
  rw [signed_abs] at small ⊢
  have some_ : n ≠ 0 := by
    rintro rfl
    cases negative <;> exact nonzero rfl
  have sign : signed negative n < 0 ↔ negative = true := by
    cases negative <;> simp [signed]
    omega
  rw [Binary64.text, whole_shortest code n value small .up some_]
  simp only [sign]

end ArithTemplate.Binary64
