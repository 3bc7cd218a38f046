import ArithTemplate.Proofs.DefaultText
import ArithTemplate.Proofs.Rounded.Overflow

set_option autoImplicit false

open ArithTemplate.Binary64 (RoundsTo)

namespace ArithTemplate.Written

section Behind

variable (rest : Text)

theorem span_passes (digits : Digits) : Numeral.span (digits.text ++ rest) =
    (digits.text ++ rest.takeWhile Char.isDigit, rest.dropWhile Char.isDigit) := by
  rw [Numeral.span, List.takeWhile_append_of_pos digits.digits,
    List.dropWhile_append_of_pos digits.digits]

theorem fraction_suffix (whole s : Text) : (Literal.fractionSpan whole s).2 <:+ s := by
  obtain ⟨decimals, split, _, _⟩ := fraction_splits whole s
  exact ⟨_, split.symm⟩

theorem exponent_suffix (s : Text) : (Literal.exponentSpan s).2 <:+ s := by
  obtain ⟨power, split, _⟩ := exponent_splits s
  exact ⟨_, split.symm⟩

-- Of a number that stands at the start of a text nothing is left over, though there may be more in
-- front of what is left.
theorem point_passes (whole : Text) (digits : Digits) (counts : whole ≠ [] ∨ digits.text ≠ []) :
    let spanned := Literal.fractionSpan whole ('.' :: (digits.text ++ rest))
    spanned.1 ≠ none ∧ spanned.2 <:+ rest := by
  have found : ¬ (whole = [] ∧ digits.text ++ rest.takeWhile Char.isDigit = []) := by
    simp only [List.append_eq_nil_iff]
    tauto
  simp only [Literal.fractionSpan, span_passes, if_neg found]
  exact ⟨Option.some_ne_none _, List.dropWhile_suffix _⟩

theorem mantissa_passes (m : Mantissa) :
    let spanned := Numeral.span (m.text ++ rest)
    let fraction := Literal.fractionSpan spanned.1 spanned.2
    ¬ (spanned.1 = [] ∧ fraction.1 = none) ∧ fraction.2 <:+ rest := by
  cases m with
  | whole digits decimals =>
      cases decimals with
      | none =>
          rw [Mantissa.text, decimalsText, List.append_nil, span_passes]
          have some_ : digits.text ++ rest.takeWhile Char.isDigit ≠ [] := by
            simp [digits.nonempty]
          exact ⟨fun none => some_ none.1,
            (fraction_suffix _ _).trans (List.dropWhile_suffix Char.isDigit)⟩
      | some decimals =>
          have spanned : Numeral.span (digits.text ++ '.' :: (decimals.text ++ rest)) =
              (digits.text, '.' :: (decimals.text ++ rest)) :=
            span_digits digits.toDigits _ (by simp)
          rw [Mantissa.text, decimalsText, List.append_assoc, List.cons_append, spanned]
          obtain ⟨_, suffix⟩ := point_passes rest digits.text decimals (.inl digits.nonempty)
          exact ⟨fun none => digits.nonempty none.1, suffix⟩
  | point decimals =>
      obtain ⟨found, suffix⟩ := point_passes rest [] decimals.toDigits (.inr decimals.nonempty)
      exact ⟨fun none => found none.2, suffix⟩

theorem power_passes (p : Power) : (Literal.exponentSpan (powerText (some p) ++ rest)).2 <:+ rest := by
  let longer : SomeDigits :=
    ⟨⟨p.digits.text ++ rest.takeWhile Char.isDigit,
      List.forall_mem_append.2 ⟨p.digits.digits, run_inside Char.isDigit rest⟩⟩,
      by simp [p.digits.nonempty]⟩
  have same : powerText (some p) ++ rest =
      powerText (some ⟨p.capital, p.sign, longer⟩) ++ rest.dropWhile Char.isDigit := by
    simp [powerText, Power.letter, longer]
  rw [same, power_scanned _ _ (run_boundary Char.isDigit rest)]
  exact List.dropWhile_suffix _

theorem scan_passes (n : Number) : ∃ literal after,
    Literal.scan (n.text ++ rest) = some (literal, after) ∧ after <:+ rest := by
  have signed := sign_of_text n.sign (n.mantissa.text ++ (powerText n.power ++ rest))
    (mantissa_unsigned n.mantissa _)
  simp only [Number.text, List.append_assoc, Literal.scan, signed]
  cases power : n.power with
  | none =>
      obtain ⟨found, suffix⟩ := mantissa_passes rest n.mantissa
      rw [powerText, List.nil_append, if_neg found]
      exact ⟨_, _, rfl, (exponent_suffix _).trans suffix⟩
  | some p =>
      obtain ⟨after, spanned, fraction⟩ :=
        mantissa_of_text n.mantissa (powerText (some p) ++ rest) (letter_boundary p rest)
      simp only [spanned, fraction, if_neg (mantissa_counts n.mantissa)]
      exact ⟨_, _, rfl, power_passes rest p⟩

end Behind

-- The number that takes most of a text, and what it leaves of it.
structure Longest (s : Text) (n : Number) (rest : Text) : Prop where
  spelled : s = n.text ++ rest
  longest : ∀ (other : Number) (after : Text), s = other.text ++ after →
    other.text.length ≤ n.text.length

theorem scan_longest (s rest : Text) (literal : Literal)
    (scanned : Literal.scan s = some (literal, rest)) :
    ∃ n : Number, Longest s n rest ∧ n.literal = literal := by
  obtain ⟨n, spelled, read⟩ := number_of_scan s rest literal scanned
  refine ⟨n, ⟨spelled, ?_⟩, read⟩
  rintro other after split
  obtain ⟨_, behind, passed, suffix⟩ := scan_passes after other
  have left : behind = rest := by
    rw [← split, scanned] at passed
    exact (Prod.mk.inj (Option.some.inj passed)).2.symm
  have lengths := congrArg List.length (spelled.symm.trans split)
  have shorter := suffix.length_le
  simp only [List.length_append] at lengths
  rw [left] at shorter
  omega

theorem number_longest (s : Text) (position : ℕ) :
    (∃ n rest, Longest s n rest ∧
      Scan.number ⟨position, s⟩ = (some n.value, ⟨position + n.text.bytes, rest⟩)) ∨
    ((∀ (n : Number) (rest : Text), s ≠ n.text ++ rest) ∧
      Scan.number ⟨position, s⟩ = (none, ⟨position, s⟩)) := by
  cases scanned : Literal.scan s with
  | none =>
      right
      refine ⟨?_, by simp only [Scan.number, scanned]⟩
      rintro n rest rfl
      obtain ⟨_, _, passed, _⟩ := scan_passes rest n
      cases scanned.symm.trans passed
  | some found =>
      left
      obtain ⟨literal, rest⟩ := found
      obtain ⟨n, longest, rfl⟩ := scan_longest s rest literal scanned
      have bytes : s.bytes - rest.bytes = n.text.bytes := by
        rw [longest.spelled, Text.bytes_append, Nat.add_sub_cancel]
      refine ⟨n, rest, longest, ?_⟩
      simp only [Scan.number, scanned, bytes]
      rfl

-- An exponent counts as written or has reached the bound, which what is written then has, too.
theorem take_reached (digits : Text) (n : ℕ) (reached : Exponent.bound ≤ n) :
    digits.foldl Exponent.take n = n := by
  induction digits with
  | nil => rfl
  | cons c rest ih => rw [List.foldl_cons, Exponent.take, if_neg (Nat.not_lt.2 reached), ih]

-- What is taken of an exponent is all of it, or has reached the bound and is no more than a tenth.
theorem take_value (digits : Text) (n : ℕ) :
    let value := digits.foldl (fun n c => 10 * n + (c.toNat - '0'.toNat)) n
    digits.foldl Exponent.take n = value ∨
      (Exponent.bound ≤ digits.foldl Exponent.take n ∧ 10 * digits.foldl Exponent.take n ≤ value) := by
  induction digits generalizing n with
  | nil => exact .inl rfl
  | cons c rest ih =>
      by_cases below : n < Exponent.bound
      · simpa only [List.foldl_cons, Exponent.take, if_pos below] using ih _
      · have reached := Nat.le_of_not_lt below
        have more := Exponent.le_foldl_value rest (10 * n + (c.toNat - '0'.toNat))
        rw [take_reached (c :: rest) n reached, List.foldl_cons]
        exact .inr ⟨reached, (Nat.le_add_right _ _).trans more⟩

theorem counted_value (p : Power) :
    p.exponent.counted = powerValue (some p) ∨
      ∃ counted written : ℕ, Exponent.bound ≤ counted ∧ Exponent.bound ≤ written ∧
        p.exponent.counted = p.exponent.signed counted ∧
        powerValue (some p) = p.exponent.signed written := by
  rcases take_value p.digits.text 0 with same | ⟨counted, tenth⟩
  · exact .inl (congrArg p.exponent.signed same)
  · have written := counted.trans ((Nat.le_mul_of_pos_left _ (by decide)).trans tenth)
    exact .inr ⟨_, _, counted, written, rfl, rfl⟩

-- So many digits no exponent at the bound can make up for.
def mostDigits : ℕ := 65212

def Number.Moderate (n : Number) : Prop :=
  n.mantissa.wholeDigits.length ≤ mostDigits ∧ (n.mantissa.decimals.getD []).length ≤ mostDigits

section Far

variable (negative : Bool) (d : Decimal)

theorem far_above (nonzero : d.coefficient ≠ 0) (far : 324 ≤ d.exponent) :
    RoundsTo negative d.rational (.infinite negative) := by
  refine Binary64.rounds_huge negative _ ?_
  have one : (1 : ℚ) ≤ d.coefficient := by exact_mod_cast Nat.one_le_iff_ne_zero.2 nonzero
  calc
    (10 : ℚ) ^ (324 : ℤ) ≤ 10 ^ d.exponent := zpow_le_zpow_right₀ (by norm_num) far
    _ ≤ d.coefficient * 10 ^ d.exponent := le_mul_of_one_le_left (zpow_nonneg (by norm_num) _) one

theorem far_below (places : ℕ) (small : d.coefficient < 10 ^ places)
    (far : places + d.exponent ≤ -324) : RoundsTo negative d.rational (Binary64.zero negative) := by
  refine Binary64.rounds_tiny negative _ ?_
  have cast : (d.coefficient : ℚ) ≤ 10 ^ (places : ℤ) := by
    rw [zpow_natCast]
    exact_mod_cast small.le
  calc
    (d.coefficient : ℚ) * 10 ^ d.exponent ≤ 10 ^ (places : ℤ) * 10 ^ d.exponent :=
      mul_le_mul_of_nonneg_right cast (zpow_nonneg (by norm_num) _)
    _ = 10 ^ (places + d.exponent) := (zpow_add₀ (by norm_num) _ _).symm
    _ ≤ 10 ^ (-324 : ℤ) := zpow_le_zpow_right₀ (by norm_num) far

end Far

section Value

variable (n : Number)

theorem value_rounds : RoundsTo (isMinus n.sign) n.literal.magnitude.rational n.value :=
  Binary64.of_decimal_rounds _ _

-- Two decimals that are read as the same number.
theorem value_rounds_to (q : ℚ) (x : Binary64)
    (counted : RoundsTo (isMinus n.sign) n.literal.magnitude.rational x)
    (written : RoundsTo (isMinus n.sign) q x) : RoundsTo (isMinus n.sign) q n.value := by
  rwa [Binary64.rounds_unique _ _ _ _ (value_rounds n) counted]

theorem coefficient_below : n.decimal.coefficient <
    10 ^ (n.mantissa.wholeDigits.length + (n.mantissa.decimals.getD []).length) := by
  rw [← List.length_append]
  refine Numeral.value_below _ (List.forall_mem_append.2 ?_)
  cases n.mantissa with
  | whole digits decimals =>
      cases decimals with
      | none => exact ⟨digits.digits, nofun⟩
      | some decimals => exact ⟨digits.digits, decimals.digits⟩
  | point decimals => exact ⟨nofun, decimals.digits⟩

theorem rounds_of_nothing (nothing : n.decimal.coefficient = 0) :
    RoundsTo (isMinus n.sign) n.rational n.value := by
  have same : n.rational = n.literal.magnitude.rational := by
    simp only [Number.rational, Decimal.rational, magnitude_coefficient n, nothing, Nat.cast_zero, zero_mul]
  rw [same]
  exact value_rounds n

theorem rounds_of_power (p : Power) (power : n.power = some p)
    (same : p.exponent.counted = powerValue (some p)) :
    RoundsTo (isMinus n.sign) n.rational n.value := by
  have exponent : n.literal.magnitude.exponent = n.decimal.exponent := by
    simp only [Literal.magnitude, Number.literal, Number.decimal, power, Option.map_some,
      Option.getD_some, same]
  have decimal : n.literal.magnitude = n.decimal :=
    congr (congrArg Decimal.mk (magnitude_coefficient n)) exponent
  rw [Number.rational, ← decimal]
  exact value_rounds n

theorem rounds_of_far (p : Power) (power : n.power = some p) (moderate : n.Moderate)
    (counted written : ℕ) (far : Exponent.bound ≤ counted) (far' : Exponent.bound ≤ written)
    (counts : p.exponent.counted = p.exponent.signed counted)
    (reads : powerValue (some p) = p.exponent.signed written) :
    RoundsTo (isMinus n.sign) n.rational n.value := by
  have bound : Exponent.bound = 65536 := rfl
  have most : mostDigits = 65212 := rfl
  obtain ⟨whole, decimals⟩ := moderate
  have coefficient := magnitude_coefficient n
  have exponent : n.literal.magnitude.exponent =
      p.exponent.signed counted - (n.mantissa.decimals.getD []).length := by
    simp only [Literal.magnitude, Number.literal, power, Option.map_some, Option.getD_some, counts]
  have exponent' : n.decimal.exponent =
      p.exponent.signed written - (n.mantissa.decimals.getD []).length := by
    simp only [Number.decimal, power, reads]
  by_cases nothing : n.decimal.coefficient = 0
  · exact rounds_of_nothing n nothing
  · cases sign : p.exponent.negative with
    | false =>
        simp only [Exponent.signed, sign, Bool.false_eq_true, if_false] at exponent exponent'
        exact value_rounds_to n _ _ (far_above _ _ (coefficient ▸ nothing) (by omega))
          (far_above _ _ nothing (by omega))
    | true =>
        simp only [Exponent.signed, sign, if_true] at exponent exponent'
        have small := coefficient_below n
        exact value_rounds_to n _ _ (far_below _ _ _ (coefficient ▸ small) (by push_cast; omega))
          (far_below _ _ _ small (by push_cast; omega))

theorem moderate_rounds (moderate : n.Moderate) : RoundsTo (isMinus n.sign) n.rational n.value := by
  cases power : n.power with
  | none =>
      rw [Number.rational, ← literal_decimal n fun p some => by cases power.symm.trans some]
      exact value_rounds n
  | some p =>
      rcases counted_value p with same | ⟨counted, written, far, far', counts, reads⟩
      · exact rounds_of_power n p power same
      · exact rounds_of_far n p power moderate counted written far far' counts reads

end Value

section Cut

-- A one with zeros behind it and an exponent that takes them away again.
def oneWithZeros (zeros : ℕ) : SomeDigits where
  text := '1' :: List.replicate zeros '0'
  digits := List.forall_mem_cons.2 ⟨rfl, fun _ zero => (List.eq_of_mem_replicate zero).symm ▸ rfl⟩
  nonempty := List.cons_ne_nil _ _

def scaledOne (zeros : ℕ) (exponent : SomeDigits) : Number :=
  ⟨none, .whole (oneWithZeros zeros) none, some ⟨false, some .minus, exponent⟩⟩

variable (zeros : ℕ) (exponent : SomeDigits)

theorem scaled_one_bytes :
    (scaledOne zeros exponent).text.bytes = zeros + 3 + exponent.text.bytes := by
  have run : Text.bytes (List.replicate zeros '0') = zeros := by
    induction zeros with
    | zero => rfl
    | succ k ih =>
        rw [List.replicate_succ, Text.bytes, ih, Nat.add_comm]
        rfl
  have text : (scaledOne zeros exponent).text =
      ['1'] ++ List.replicate zeros '0' ++ ['e', '-'] ++ exponent.text := by
    simp [scaledOne, Number.text, signText, Mantissa.text, oneWithZeros, decimalsText, powerText,
      Power.letter]
  have marks : Text.bytes ['e', '-'] = 2 := rfl
  have one : Text.bytes ['1'] = 1 := rfl
  rw [text, Text.bytes_append, Text.bytes_append, Text.bytes_append, run, marks, one]
  omega

theorem one_with_zeros_value : Numeral.value (oneWithZeros zeros).text = 10 ^ zeros := by
  have one : Numeral.value ['1'] = 1 := rfl
  change Numeral.value (['1'] ++ List.replicate zeros '0') = 10 ^ zeros
  rw [Numeral.value_append, Numeral.value_zeros, one, List.length_replicate, Nat.mul_one,
    Nat.add_zero]

theorem scaled_rational (d : Decimal) (coefficient : d.coefficient = 10 ^ zeros) :
    d.rational = 10 ^ (zeros + d.exponent) := by
  rw [Decimal.rational, coefficient, zpow_add₀ (by norm_num), zpow_natCast]
  push_cast
  rfl

theorem scaled_one_coefficient : (scaledOne zeros exponent).decimal.coefficient = 10 ^ zeros := by
  rw [← one_with_zeros_value]
  exact congrArg Numeral.value (List.append_nil _)

end Cut

def cutExponent : SomeDigits := ⟨⟨['6', '5', '5', '3', '6', '0'], List.all_eq_true.1 rfl⟩, nofun⟩

-- A number is read as far as it goes, and as the binary number nearest to it, unless it has so many
-- digits that an exponent of which only the first digits count can make a difference.
theorem scanned_longest_rounded (s : Text) (position : ℕ) :
    (∃ n rest, Longest s n rest ∧
      Scan.number ⟨position, s⟩ = (some n.value, ⟨position + n.text.bytes, rest⟩) ∧
      RoundsTo (isMinus n.sign) n.literal.magnitude.rational n.value ∧
      (n.Moderate ∨ (∀ p, n.power = some p → Numeral.value p.digits.text < 10 * Exponent.bound) →
        RoundsTo (isMinus n.sign) n.rational n.value)) ∨
    ((∀ (n : Number) (rest : Text), s ≠ n.text ++ rest) ∧
      Scan.number ⟨position, s⟩ = (none, ⟨position, s⟩)) := by
  refine (number_longest s position).imp ?_ id
  rintro ⟨n, rest, longest, read⟩
  refine ⟨n, rest, longest, read, value_rounds n, ?_⟩
  rintro (moderate | counts)
  · exact moderate_rounds n moderate
  · rw [Number.rational, ← literal_decimal n counts]
    exact value_rounds n

-- The exponent is counted as a tenth of what it is, so what is next to nothing becomes one.
theorem long_exponent_cut :
    let n := scaledOne Exponent.bound cutExponent
    let one := Binary64.finite false 0x3FF0000000000000
    Scan.number (Scan.start n.text) = (some one, ⟨65545, []⟩) ∧
      RoundsTo false n.rational (Binary64.zero false) ∧ ¬ RoundsTo false n.rational one := by
  intro n one
  have counted : n.literal.magnitude.exponent = -Exponent.bound := by rfl
  have written : n.decimal.exponent = -(10 * Exponent.bound : ℕ) := by rfl
  have read : n.value = one := by
    have whole : n.literal.magnitude.rational = 1 := by
      rw [scaled_rational Exponent.bound _ ((magnitude_coefficient n).trans (scaled_one_coefficient _ _)),
        counted, add_neg_cancel, zpow_zero]
    have unit : Binary64.units 0x3FF0000000000000 = Binary64.unitsPerOne := by decide +kernel
    refine (number_value n false _).2 ⟨rfl, ?_⟩
    rw [whole, Binary64.ReadAs, one_mul, ← unit]
    exact .of_units _
  have nothing : RoundsTo false n.rational (Binary64.zero false) := by
    refine Binary64.rounds_tiny false _ ?_
    rw [Number.rational, scaled_rational Exponent.bound _ (scaled_one_coefficient _ _), written]
    exact zpow_le_zpow_right₀ (by norm_num) (by decide)
  refine ⟨?_, nothing, ?_⟩
  · rw [number_scanned, read, scaled_one_bytes]
    rfl
  · intro rounded
    have same := Binary64.rounds_unique _ _ _ _ rounded nothing
    exact absurd same (by decide)

end ArithTemplate.Written
