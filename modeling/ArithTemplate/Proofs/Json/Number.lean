import ArithTemplate.Json.Number
import ArithTemplate.Proofs.Numeral
import ArithTemplate.Proofs.Results
import ArithTemplate.Proofs.Rounded.Overflow
import ArithTemplate.Proofs.Written.Value

set_option autoImplicit false

open ArithTemplate.Binary64 (Nearest RoundsTo top_power top_power_pos units unitsPerOne)

namespace ArithTemplate.Json

section Gather

variable (s : Text) (word : ℕ)

theorem gather_below (small : word < Numeral.wordLimit) : (gather s word).1 < Numeral.wordLimit := by
  induction s generalizing word with
  | nil => exact small
  | cons c rest hypothesis =>
      rw [gather]
      split
      · rename_i fits
        exact hypothesis _ fits
      · exact small

-- Digits that are left out count as zeros.
theorem gather_value : (gather s word).1 * 10 ^ (gather s word).2 ≤
    word * 10 ^ s.length + Numeral.value s := by
  induction s generalizing word with
  | nil => exact Nat.le_refl _
  | cons c rest hypothesis =>
      rw [gather, Numeral.value_cons, List.length_cons]
      split
      · refine (hypothesis _).trans (le_of_eq ?_)
        ring
      · exact Nat.le_add_right _ _

theorem gather_stuck (full : Numeral.wordLimit ≤ 10 * word) : gather s word = (word, s.length) := by
  cases s with
  | nil => rfl
  | cons c rest =>
      rw [gather]
      rw [if_neg (by omega)]
      rfl

-- The digit that did not fit is larger than any that fits after it, and then nothing fits any more.
theorem gather_full (digits : ∀ c ∈ s, c.isDigit = true) (dropped : 0 < (gather s word).2) :
    ∃ digit, digit ≤ 9 ∧ Numeral.wordLimit ≤ 10 * (gather s word).1 + digit ∧
      (10 * (gather s word).1 + digit) * 10 ^ ((gather s word).2 - 1) ≤
        word * 10 ^ s.length + Numeral.value s := by
  induction s generalizing word with
  | nil => exact absurd dropped (Nat.lt_irrefl 0)
  | cons c rest hypothesis =>
      obtain ⟨first, later⟩ := List.forall_mem_cons.1 digits
      rw [gather] at dropped ⊢
      rw [Numeral.value_cons, List.length_cons]
      split at dropped
      · rename_i fits
        rw [if_pos fits]
        obtain ⟨digit, small, full, bound⟩ := hypothesis _ later dropped
        refine ⟨digit, small, full, bound.trans (le_of_eq ?_)⟩
        ring
      · rename_i more
        rw [if_neg more]
        refine ⟨c.toNat - '0'.toNat, Nat.le_of_lt_succ (Numeral.digit_below c first),
          Nat.le_of_not_lt more, ?_⟩
        calc
          (10 * word + (c.toNat - '0'.toNat)) * 10 ^ rest.length =
              word * 10 ^ (rest.length + 1) + 10 ^ rest.length * (c.toNat - '0'.toNat) := by ring
          _ ≤ _ := Nat.add_le_add_left (Nat.le_add_right _ _) _

theorem gather_behind (digit : ℕ) (small : digit ≤ 9) (full : Numeral.wordLimit ≤ 10 * word + digit) :
    gather s word = (word, s.length) ∨
      ((gather s word).1 ≤ 10 * word + digit ∧ s.length = (gather s word).2 + 1) := by
  have limit : Numeral.wordLimit = 18446744073709551616 := rfl
  cases s with
  | nil => exact .inl rfl
  | cons c rest =>
      rw [gather]
      split
      · rename_i fits
        rw [gather_stuck rest _ (by omega)]
        exact .inr ⟨by omega, rfl⟩
      · exact .inl rfl

theorem behind_nothing : word * 10 ^ ([] : Text).length + Numeral.value [] = word := by
  rw [List.length_nil, pow_zero, Nat.mul_one]
  rfl

theorem behind_digit (c : Char) (rest : Text) :
    word * 10 ^ (c :: rest).length + Numeral.value (c :: rest) =
      (10 * word + (c.toNat - '0'.toNat)) * 10 ^ rest.length + Numeral.value rest := by
  rw [Numeral.value_cons, List.length_cons]
  ring

-- As long as nothing is left out, the word is what the digits say.
theorem gather_fits (fits : word * 10 ^ s.length + Numeral.value s < Numeral.wordLimit) :
    gather s word = (word * 10 ^ s.length + Numeral.value s, 0) := by
  induction s generalizing word with
  | nil => rw [gather, behind_nothing]
  | cons c rest hypothesis =>
      rw [behind_digit] at fits ⊢
      have first : 10 * word + (c.toNat - '0'.toNat) ≤
          (10 * word + (c.toNat - '0'.toNat)) * 10 ^ rest.length :=
        Nat.le_mul_of_pos_right _ (by positivity)
      rw [gather, if_pos (by omega)]
      exact hypothesis _ fits

theorem gather_kept (kept : (gather s word).2 = 0) :
    (gather s word).1 = word * 10 ^ s.length + Numeral.value s := by
  induction s generalizing word with
  | nil => rw [gather, behind_nothing]
  | cons c rest hypothesis =>
      rw [gather] at kept ⊢
      split at kept
      · rename_i fits
        rw [if_pos fits, hypothesis _ kept, behind_digit]
      · cases kept

end Gather

theorem gathered_value (whole fraction : Text) (digits : ∀ c ∈ whole, c.isDigit = true) :
    let first := gather whole 0
    let second := gather fraction first.1
    second.1 * 10 ^ (first.2 + second.2) ≤ Numeral.value (whole ++ fraction) := by
  intro first second
  have total := Numeral.value_append whole fraction
  have kept : second.1 * 10 ^ second.2 ≤ first.1 * 10 ^ fraction.length + Numeral.value fraction :=
    gather_value fraction first.1
  by_cases all : first.2 = 0
  · have reached : first.1 * 10 ^ first.2 ≤ 0 * 10 ^ whole.length + Numeral.value whole :=
      gather_value whole 0
    rw [all, pow_zero, Nat.mul_one, Nat.zero_mul, Nat.zero_add] at reached
    rw [all, Nat.zero_add, total, Nat.mul_comm (10 ^ fraction.length)]
    exact kept.trans (Nat.add_le_add_right (Nat.mul_le_mul_right _ reached) _)
  · obtain ⟨digit, small, full, bound⟩ := gather_full whole 0 digits (Nat.pos_of_ne_zero all)
    obtain ⟨dropped, count⟩ : ∃ k, first.2 = k + 1 := ⟨first.2 - 1, by omega⟩
    change (10 * first.1 + digit) * 10 ^ (first.2 - 1) ≤ _ at bound
    rw [count, Nat.add_sub_cancel, Nat.zero_mul, Nat.zero_add] at bound
    have scaled := Nat.mul_le_mul_right (10 ^ fraction.length) bound
    refine le_trans ?_ (total ▸ Nat.le_add_right _ _)
    rw [Nat.mul_comm (10 ^ fraction.length)]
    refine le_trans ?_ scaled
    rcases gather_behind fraction first.1 digit small full with same | ⟨most, length⟩
    · have second_eq : second = (first.1, fraction.length) := same
      rw [second_eq, count]
      calc
        first.1 * 10 ^ (dropped + 1 + fraction.length) =
            10 * first.1 * 10 ^ dropped * 10 ^ fraction.length := by ring
        _ ≤ (10 * first.1 + digit) * 10 ^ dropped * 10 ^ fraction.length :=
          Nat.mul_le_mul_right _ (Nat.mul_le_mul_right _ (Nat.le_add_right _ _))
    · change second.1 ≤ _ at most
      change fraction.length = second.2 + 1 at length
      rw [length, count]
      calc
        second.1 * 10 ^ (dropped + 1 + second.2) = second.1 * 10 ^ dropped * 10 ^ (second.2 + 1) := by
          ring
        _ ≤ (10 * first.1 + digit) * 10 ^ dropped * 10 ^ (second.2 + 1) :=
          Nat.mul_le_mul_right _ (Nat.mul_le_mul_right _ most)

section Scaled

-- A number of this size can be rounded up twice, by half a step each time.
def safeLimit : ℚ := 2 ^ 1024 - 2 ^ 973

theorem safe_twice (q : ℚ) (safe : q ≤ safeLimit) :
    q * (1 + 1 / 2 ^ 53) ^ 2 < 2 ^ 1024 - 2 ^ 970 := by
  have positive := top_power_pos
  have steps : (2 : ℚ) ^ 973 = 2 ^ 3 * 2 ^ 970 := pow_add 2 3 970
  rw [safeLimit, top_power, steps] at safe
  rw [top_power]
  generalize (2 : ℚ) ^ 970 = step at positive safe ⊢
  calc
    q * (1 + 1 / 2 ^ 53) ^ 2 ≤ (2 ^ 54 * step - 2 ^ 3 * step) * (1 + 1 / 2 ^ 53) ^ 2 :=
      mul_le_mul_of_nonneg_right safe (by positivity)
    _ = (2 ^ 54 - 2 ^ 3) * (1 + 1 / 2 ^ 53) ^ 2 * step := by ring
    _ < (2 ^ 54 - 1) * step := mul_lt_mul_of_pos_right (by norm_num) positive
    _ = 2 ^ 54 * step - step := by ring

theorem whole_read (negative : Bool) (n : ℕ) (small : n < Numeral.wordLimit) :
    ∃ code, wholeToBinary negative n = .finite negative code ∧ Nearest (n * unitsPerOne) code := by
  have limit : Numeral.wordLimit = 2 ^ 64 := rfl
  have below : (n : ℚ) < 2 ^ 1024 - 2 ^ 970 := by
    have bits : (n : ℚ) < 2 ^ 64 := by exact_mod_cast limit ▸ small
    have power : (2 : ℚ) ^ 64 ≤ 2 ^ 970 := pow_le_pow_right₀ one_le_two (by omega)
    have positive := top_power_pos
    rw [top_power]
    generalize (2 : ℚ) ^ 970 = step at power positive ⊢
    linarith
  obtain ⟨code, finite, nearest⟩ := Binary64.of_ratio_finite negative (n * unitsPerOne) 1 Nat.one_pos (by
    rw [Nat.cast_one, div_one, Nat.cast_mul]
    exact mul_lt_mul_of_pos_right below Binary64.units_per_one_pos)
  rw [Nat.cast_one, div_one, Nat.cast_mul] at nearest
  exact ⟨code, finite, nearest⟩

theorem power_read (n : ℕ) (small : n ≤ largestPower) :
    ∃ code, powerOfTen n = .finite false code ∧ Nearest (10 ^ n * unitsPerOne) code := by
  have rational : Decimal.rational ⟨1, n⟩ = 10 ^ n := by
    rw [Decimal.rational, Nat.cast_one, one_mul, zpow_natCast]
  have rounds := Binary64.of_decimal_rounds false ⟨1, n⟩
  rw [rational] at rounds
  change RoundsTo false _ (powerOfTen n) at rounds
  generalize powerOfTen n = x at rounds
  cases rounds with
  | finite code nearest => exact ⟨code, rfl, nearest⟩
  | infinite large =>
      have whole : 10 ^ 308 + 2 ^ 970 < 2 ^ 1024 := by decide +kernel
      have power : (10 : ℚ) ^ n ≤ 10 ^ 308 := pow_le_pow_right₀ (by norm_num) small
      have cast : (10 : ℚ) ^ 308 + 2 ^ 970 < 2 ^ 1024 := by exact_mod_cast whole
      exact absurd large (not_le.2 (power.trans_lt (lt_sub_iff_add_lt.2 cast)))

-- In units, with one as the smallest size there is.
theorem excess (q : ℚ) (code : ℕ) (nearest : Nearest (q * unitsPerOne) code) (one : 1 ≤ q) :
    (units code : ℚ) ≤ q * unitsPerOne * (1 + 1 / 2 ^ 53) := by
  refine Binary64.nearest_excess _ code nearest ?_
  have whole : Binary64.impliedBit ≤ unitsPerOne := by decide +kernel
  have cast : (Binary64.impliedBit : ℚ) ≤ unitsPerOne := Nat.cast_le.2 whole
  exact cast.trans (le_mul_of_one_le_left Binary64.units_per_one_pos.le one)

theorem whole_excess (word code : ℕ) (nearest : Nearest (word * unitsPerOne) code) :
    (units code : ℚ) ≤ word * unitsPerOne * (1 + 1 / 2 ^ 53) := by
  by_cases nothing : word = 0
  · rw [nothing, Nat.cast_zero, zero_mul] at nearest ⊢
    rw [nearest.unique (Binary64.nearest_nothing 0 (by norm_num)), Binary64.units_zero, zero_mul,
      Nat.cast_zero]
  · exact excess _ code nearest (by exact_mod_cast Nat.one_le_iff_ne_zero.2 nothing)

theorem power_reached (n code : ℕ) (nearest : Nearest (10 ^ n * unitsPerOne) code) :
    unitsPerOne ≤ units code := by
  have one : units 0x3FF0000000000000 = unitsPerOne := by decide +kernel
  have unit := Binary64.units_per_one_pos
  have power : (1 : ℚ) ≤ 10 ^ n := one_le_pow₀ (by norm_num)
  refine Nat.le_of_not_lt fun less => ?_
  have below : (units code : ℚ) < unitsPerOne := Nat.cast_lt.2 less
  have above : (unitsPerOne : ℚ) ≤ 10 ^ n * unitsPerOne := le_mul_of_one_le_left unit.le power
  have nearer := nearest.within 0x3FF0000000000000
  rw [one, abs_of_nonneg (by linarith), abs_of_nonneg (by linarith)] at nearer
  linarith

theorem product_read (word n : ℕ) (small : word < Numeral.wordLimit) (power : n ≤ largestPower)
    (safe : (word : ℚ) * 10 ^ n ≤ safeLimit) :
    ((wholeToBinary false word).mul (powerOfTen n)).isFinite = true := by
  obtain ⟨a, left, nearA⟩ := whole_read false word small
  obtain ⟨b, right, nearB⟩ := power_read n power
  have unit := Binary64.units_per_one_pos
  have mostA := whole_excess word a nearA
  have mostB := excess _ b nearB (one_le_pow₀ (by norm_num))
  have product : ((units a * units b : ℕ) : ℚ) / unitsPerOne < (2 ^ 1024 - 2 ^ 970) * unitsPerOne := by
    rw [div_lt_iff₀ unit, Nat.cast_mul]
    calc
      (units a : ℚ) * units b ≤ (word * unitsPerOne * (1 + 1 / 2 ^ 53)) *
          (10 ^ n * unitsPerOne * (1 + 1 / 2 ^ 53)) :=
        mul_le_mul mostA mostB (Nat.cast_nonneg _) ((Nat.cast_nonneg _).trans mostA)
      _ = word * 10 ^ n * (1 + 1 / 2 ^ 53) ^ 2 * (unitsPerOne * unitsPerOne) := by ring
      _ < (2 ^ 1024 - 2 ^ 970) * (unitsPerOne * unitsPerOne) :=
        mul_lt_mul_of_pos_right (safe_twice _ safe) (mul_pos unit unit)
      _ = (2 ^ 1024 - 2 ^ 970) * unitsPerOne * unitsPerOne := (mul_assoc _ _ _).symm
  obtain ⟨code, finite, _⟩ := Binary64.of_ratio_finite (false != false) _ _ (Nat.cast_pos.1 unit) product
  rw [left, right, Binary64.mul, finite]
  rfl

theorem scale_up_finite (x y : Binary64) (n : ℕ) (scaled : scaleUp x n = .ok y)
    (finite : x.isFinite = true) : y.isFinite = true := by
  rw [scaleUp] at scaled
  split at scaled
  · dsimp only at scaled
    split at scaled
    · rename_i inside
      cases scaled
      exact inside
    · cases scaled
  · split at scaled
    · cases scaled
      exact finite
    · cases scaled

theorem scale_up_reads (word n : ℕ) (small : word < Numeral.wordLimit)
    (safe : (word : ℚ) * 10 ^ n ≤ safeLimit) :
    ∃ x, scaleUp (wholeToBinary false word) n = .ok x := by
  rw [scaleUp]
  by_cases power : n ≤ largestPower
  · rw [if_pos power]
    dsimp only
    rw [if_pos (product_read word n small power safe)]
    exact ⟨_, rfl⟩
  · rw [if_neg power]
    by_cases nothing : word = 0
    · have zero : wholeToBinary false word = .zero false := by
        rw [nothing, wholeToBinary, Nat.zero_mul]
        rfl
      rw [if_pos zero]
      exact ⟨_, rfl⟩
    · have whole : 2 ^ 1024 ≤ 10 ^ 309 := by decide +kernel
      have limit : (2 : ℚ) ^ 1024 ≤ 10 ^ 309 := by exact_mod_cast whole
      have one : (1 : ℚ) ≤ word := by exact_mod_cast Nat.one_le_iff_ne_zero.2 nothing
      have large : (10 : ℚ) ^ 309 ≤ 10 ^ n :=
        pow_le_pow_right₀ (by norm_num) (Nat.lt_of_not_le power)
      have gap : (0 : ℚ) < 2 ^ 973 := pow_pos two_pos 973
      have more : (10 : ℚ) ^ n ≤ word * 10 ^ n := le_mul_of_one_le_left (by positivity) one
      rw [safeLimit] at safe
      exact absurd (limit.trans (large.trans (more.trans safe))) (not_le.2 (sub_lt_self _ gap))

theorem quotient_finite (negative : Bool) (a : Fin 0x7FF0000000000000) (n : ℕ) (power : n ≤ largestPower) :
    ∃ code, (Binary64.finite negative a).div (powerOfTen n) = .finite negative code := by
  obtain ⟨b, divisor, nearest⟩ := power_read n power
  have reached := power_reached n b nearest
  have unit := Binary64.units_per_one_pos
  have positive : 0 < units b := Nat.lt_of_lt_of_le (Nat.cast_pos.1 unit) reached
  have nonzero : b.val ≠ 0 := by
    intro zero
    rw [zero] at positive
    exact absurd positive (Nat.lt_irrefl 0)
  have small : ((units a * unitsPerOne : ℕ) : ℚ) / units b < (2 ^ 1024 - 2 ^ 970) * unitsPerOne := by
    have divisor : (unitsPerOne : ℚ) ≤ units b := Nat.cast_le.2 reached
    calc
      ((units a * unitsPerOne : ℕ) : ℚ) / units b ≤ units a := by
        rw [div_le_iff₀ (Nat.cast_pos.2 positive), Nat.cast_mul]
        exact mul_le_mul_of_nonneg_left divisor (Nat.cast_nonneg _)
      _ < (2 ^ 1024 - 2 ^ 970) * unitsPerOne := Binary64.units_below_middle a
  obtain ⟨code, finite, _⟩ := Binary64.of_ratio_finite (negative != false) _ _ positive small
  refine ⟨code, ?_⟩
  rw [divisor, Binary64.div, if_neg nonzero, finite, Bool.bne_false]

theorem scale_down_finite (x : Binary64) (n : ℕ) (finite : x.isFinite = true) :
    (scaleDown x n).isFinite = true := by
  have divided (y : Binary64) (k : ℕ) (finite : y.isFinite = true) (power : k ≤ largestPower) :
      (y.div (powerOfTen k)).isFinite = true := by
    cases y with
    | nan => cases finite
    | infinite _ => cases finite
    | finite negative a =>
        obtain ⟨code, same⟩ := quotient_finite negative a k power
        rw [same]
        rfl
  induction x, n using scaleDown.induct with
  | case1 x n power =>
      rw [scaleDown, if_pos power]
      exact divided x n finite power
  | case2 n power =>
      rw [scaleDown, if_neg power, if_pos rfl]
      rfl
  | case3 x n power zero hypothesis =>
      rw [scaleDown, if_neg power, if_neg zero]
      exact hypothesis (divided x largestPower finite (Nat.le_refl _))

theorem scaled_finite (word : ℕ) (exponent : ℤ) (x : Binary64) (small : word < Numeral.wordLimit)
    (read : scaled word exponent = .ok x) : x.isFinite = true := by
  obtain ⟨code, whole, _⟩ := whole_read false word small
  have finite : (wholeToBinary false word).isFinite = true := by
    rw [whole]
    rfl
  rw [scaled.eq_def] at read
  split at read
  · exact scale_up_finite _ _ _ read finite
  · cases read
    exact scale_down_finite _ _ finite

end Scaled

theorem integer_binary (negative : Bool) (word : ℕ) :
    (integer negative word).toBinary64 = wholeToBinary negative word := by
  cases negative with
  | false => rfl
  | true =>
      rw [integer, if_neg Bool.noConfusion]
      split
      · rfl
      · rw [Number.toBinary64, Int.natAbs_neg, Int.natAbs_natCast]

theorem integer_finite (negative : Bool) (n : ℕ) (small : n < Numeral.wordLimit) :
    (integer negative n).toBinary64.isFinite = true := by
  obtain ⟨code, whole, _⟩ := whole_read negative n small
  rw [integer_binary, whole]
  rfl

theorem neg_finite (x : Binary64) (finite : x.isFinite = true) : x.neg.isFinite = true := by
  cases x with
  | nan => cases finite
  | infinite negative => cases finite
  | finite negative code => rfl

-- What a literal is scaled by: whole digits that were left out, and those of the fraction that were not.
def magnitudeOf (l : Literal) : Except Flaw Binary64 :=
  let first := gather l.whole 0
  let second := gather (l.fraction.getD []) first.1
  let written := (l.exponent.map Exponent.written).getD 0
  if largestExponent < written.natAbs then
    if second.1 ≠ 0 ∧ 0 < written then .error .outOfRange else .ok (.zero false)
  else scaled second.1 (first.2 - (((l.fraction.getD []).length : ℤ) - second.2) + written)

theorem number_of_eq (l : Literal) : numberOf l =
    if l.fraction = none ∧ l.exponent = none ∧ (gather l.whole 0).2 = 0 then
      .ok (integer l.negative (gather l.whole 0).1)
    else (magnitudeOf l).map fun x => .float (if l.negative then x.neg else x) := rfl

theorem number_finite (l : Literal) (v : Number) (read : numberOf l = .ok v) :
    v.toBinary64.isFinite = true := by
  have start : 0 < Numeral.wordLimit := by decide
  have first := gather_below l.whole 0 start
  have second := gather_below (l.fraction.getD []) _ first
  rw [number_of_eq] at read
  split at read
  · cases read
    exact integer_finite l.negative _ first
  · obtain ⟨x, magnitude, rfl⟩ := (map_ok_iff _ _ _).1 read
    have finite : x.isFinite = true := by
      rw [magnitudeOf] at magnitude
      split at magnitude
      · split at magnitude
        · cases magnitude
        · cases magnitude
          rfl
      · exact scaled_finite _ _ x second magnitude
    rw [Number.toBinary64]
    split
    · exact neg_finite x finite
    · exact finite

-- What is bound for a number.
def Reads (n : Written.Number) (x : Binary64) : Prop :=
  ∃ v, numberOf n.literal = .ok v ∧ v.toBinary64 = x

section InRange

variable (n : Written.Number)

theorem whole_digits : ∀ c ∈ n.mantissa.wholeDigits, c.isDigit = true := by
  cases n.mantissa with
  | whole digits decimals => exact digits.digits
  | point decimals => exact nofun

theorem written_power : (n.literal.exponent.map Exponent.written).getD 0 = Written.powerValue n.power := by
  obtain ⟨sign, mantissa, power⟩ := n
  cases power with
  | none => rfl
  | some p => exact congrArg p.exponent.signed (Numeral.valueInBlocks_eq_value _)

theorem word_below :
    let first := gather n.literal.whole 0
    let second := gather (n.literal.fraction.getD []) first.1
    (second.1 : ℚ) * 10 ^ ((first.2 : ℤ) - (((n.literal.fraction.getD []).length : ℤ) - second.2) +
      Written.powerValue n.power) ≤ n.rational := by
  intro first second
  have gathered : second.1 * 10 ^ (first.2 + second.2) ≤ n.decimal.coefficient :=
    gathered_value n.literal.whole (n.literal.fraction.getD []) (whole_digits n)
  have cast : (second.1 : ℚ) * 10 ^ (first.2 + second.2) ≤ n.decimal.coefficient := by
    exact_mod_cast gathered
  have split : (first.2 : ℤ) - (((n.literal.fraction.getD []).length : ℤ) - second.2) +
      Written.powerValue n.power = ((first.2 + second.2 : ℕ) : ℤ) + n.decimal.exponent := by
    simp only [Written.Number.decimal, Written.Number.literal]
    push_cast
    ring
  rw [split, zpow_add₀ (by norm_num), zpow_natCast, ← mul_assoc]
  exact mul_le_mul_of_nonneg_right cast (zpow_nonneg (by norm_num) _)

theorem scaled_reads (word : ℕ) (exponent : ℤ) (small : word < Numeral.wordLimit)
    (safe : (word : ℚ) * 10 ^ exponent ≤ safeLimit) : ∃ x, scaled word exponent = .ok x := by
  cases exponent with
  | ofNat zeros =>
      rw [Int.ofNat_eq_natCast, zpow_natCast] at safe
      exact scale_up_reads word zeros small safe
  | negSucc places => exact ⟨_, rfl⟩

-- Numbers in range are read, up to a few steps below the largest one.
theorem reads_in_range (power : Written.powerValue n.power ≤ largestExponent)
    (safe : n.rational ≤ safeLimit) : ∃ x, Reads n x := by
  have start : 0 < Numeral.wordLimit := by decide
  have small := gather_below (n.literal.fraction.getD []) _ (gather_below n.literal.whole 0 start)
  have magnitude : ∃ x, magnitudeOf n.literal = .ok x := by
    rw [magnitudeOf, written_power]
    split
    · rw [if_neg (by omega)]
      exact ⟨_, rfl⟩
    · exact scaled_reads _ _ small ((word_below n).trans safe)
  obtain ⟨x, magnitude⟩ := magnitude
  have read : ∃ v, numberOf n.literal = .ok v := by
    rw [number_of_eq, magnitude]
    split
    · exact ⟨_, rfl⟩
    · exact ⟨_, rfl⟩
  obtain ⟨v, read⟩ := read
  exact ⟨v.toBinary64, v, read, rfl⟩

end InRange

end ArithTemplate.Json
