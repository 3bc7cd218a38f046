import ArithTemplate.Formula.Scan
import ArithTemplate.Proofs.Rounded.Shortest
import ArithTemplate.Proofs.Written.Positional

set_option autoImplicit false

open ArithTemplate.Binary64 (ReadAs)

namespace ArithTemplate.Written

theorem fixed_whole (n : ℕ) : Decimal.fixed 0 n = Numeral.ofNat n := by
  have nonempty : 0 < (Numeral.ofNat n).length := Nat.length_toDigits_pos
  have unpadded : 0 + 1 - (Numeral.ofNat n).length = 0 := by omega
  rw [Decimal.fixed, if_pos rfl, Numeral.padded, unpadded, List.replicate_zero, List.nil_append,
    Nat.sub_zero, List.take_length]

theorem last_zero (p : Positional) (last : p.fraction.text.getLast? = some '0') :
    p.coefficient % 10 = 0 := by
  obtain ⟨front, split⟩ := List.getLast?_eq_some_iff.1 last
  have nothing : Numeral.value ['0'] = 0 := rfl
  rw [Positional.coefficient, split, ← List.append_assoc, Numeral.value_append, nothing]
  exact Nat.mul_mod_right 10 _

theorem plain_positional (d : Decimal) (last : d.exponent < 0 → d.coefficient % 10 ≠ 0) :
    ∃ p : Positional, d.plain = p.text ∧ p.Trimmed ∧ p.rational = d.rational := by
  obtain ⟨n, exponent⟩ := d
  cases exponent with
  | ofNat zeros =>
      obtain ⟨p, text, length, coefficient, _⟩ := fixed_positional 0 (n * Nat.pow 10 zeros)
      rw [fixed_whole] at text
      refine ⟨p, text, ?_, ?_⟩
      · rw [Positional.Trimmed, List.length_eq_zero_iff.1 length]
        exact nofun
      · rw [Positional.rational, coefficient, length, pow_zero, div_one, Nat.cast_mul,
          Binary64.cast_power]
        rfl
  | negSucc places =>
      obtain ⟨p, text, length, coefficient, _⟩ := fixed_positional (places + 1) n
      refine ⟨p, text, ?_, ?_⟩
      · intro zero
        have divides := last_zero p zero
        rw [coefficient] at divides
        exact last (Int.negSucc_lt_zero places) divides
      · rw [Positional.rational, coefficient, length, Decimal.rational, zpow_negSucc, div_eq_mul_inv]

-- An exponent that is cut off changes what a number is read as, not its digits.
theorem number_digits (n : Number) (count : ℕ) (digits : HasDigits count n.rational) :
    HasDigits count n.literal.magnitude.rational := by
  have shifted := has_digits_shifted count _ (n.literal.magnitude.exponent - n.decimal.exponent) digits
  rwa [Number.rational, Decimal.rational, mul_assoc, ten_powers _ _ n.literal.magnitude.exponent (by omega),
    ← magnitude_coefficient] at shifted

theorem number_scanned (n : Number) :
    Scan.number (Scan.start n.text) = (some n.value, ⟨Text.bytes n.text, []⟩) := by
  have scanned := scan_of_text n [] stops_nil
  rw [List.append_nil] at scanned
  simp only [Scan.number, Scan.start, scanned, Nat.zero_add]
  rfl

section Finite

variable (negative : Bool) (code : Fin 0x7FF0000000000000)

theorem text_positional : ∃ p : Positional,
    (Binary64.finite negative code).text = (if negative then ['-'] else []) ++ p.text ∧
      p.Trimmed ∧ ReadAs code p.rational ∧
        ∀ count q, ReadAs code q → HasDigits count q → HasDigits count p.rational := by
  by_cases zero : code.val = 0
  · obtain ⟨p, text, trimmed, value⟩ := plain_positional ⟨0, 0⟩ nofun
    refine ⟨p, ?_, trimmed, ?_, ?_⟩
    · rw [Binary64.text, Binary64.shortest, if_pos zero, text]
    · rw [value, zero, Decimal.rational, Nat.cast_zero, zero_mul]
      exact Binary64.read_zero
    · intro count q _ _
      rw [value]
      exact ⟨0, 0, Nat.pow_pos (by decide), rfl⟩
  · have shortest := Binary64.shortest_shortest .up code zero
    obtain ⟨p, text, trimmed, value⟩ := plain_positional _ fun _ => shortest.last
    refine ⟨p, ?_, trimmed, value ▸ shortest.read, value ▸ shortest.fewest⟩
    rw [Binary64.text, text]

-- The default rendering of a finite number is a number literal, and denotes the number again.
theorem text_number : ∃ n : Number,
    n.text = (Binary64.finite negative code).text ∧ n.value = .finite negative code := by
  obtain ⟨p, text, _, read, _⟩ := text_positional negative code
  exact ⟨p.number negative, (positional_number_text negative p).trans text.symm,
    positional_number_value negative code p read⟩

theorem text_scanned : Scan.number (Scan.start (Binary64.finite negative code).text) =
    (some (.finite negative code), ⟨Text.bytes (Binary64.finite negative code).text, []⟩) := by
  obtain ⟨n, text, value⟩ := text_number negative code
  rw [← text, ← value]
  exact number_scanned n

end Finite

theorem text_characters (x : Binary64) :
    ∀ c ∈ x.text, c.isAlphanum = true ∨ c ∈ numberMarks := by
  have letters (s : Text) (all : s.all Char.isAlphanum = true) :
      ∀ c ∈ s, c.isAlphanum = true ∨ c ∈ numberMarks :=
    fun c member => .inl (List.all_eq_true.1 all c member)
  cases x with
  | nan => exact letters ['N', 'a', 'N'] (by decide)
  | infinite negative =>
      cases negative with
      | false => exact letters ['i', 'n', 'f'] (by decide)
      | true => exact List.forall_mem_cons.2 ⟨by decide, letters ['i', 'n', 'f'] (by decide)⟩
  | finite negative code =>
      obtain ⟨n, text, _⟩ := text_number negative code
      rw [← text]
      exact number_characters n

theorem scanned_number (x : Binary64) :
    (Scan.number (Scan.start x.text)).1 = if x.isFinite then some x else none := by
  cases x with
  | nan => rfl
  | infinite negative => cases negative <;> rfl
  | finite negative code => exact congrArg Prod.fst (text_scanned negative code)

theorem unscanned_injective (x y : Binary64) (notLeft : x.isFinite = false)
    (notRight : y.isFinite = false) (same : x.text = y.text) : x = y := by
  cases x with
  | nan =>
      cases y with
      | nan => rfl
      | infinite negative => cases negative <;> cases same
      | finite negative code => cases notRight
  | infinite negative =>
      cases y with
      | nan => cases negative <;> cases same
      | infinite other =>
          cases negative <;> cases other
          · rfl
          · cases same
          · cases same
          · rfl
      | finite negative code => cases notRight
  | finite negative code => cases notLeft

theorem text_injective : Function.Injective Binary64.text := by
  intro x y same
  have scanned := scanned_number x
  rw [same, scanned_number y] at scanned
  cases left : x.isFinite with
  | true =>
      cases right : y.isFinite with
      | true =>
          rw [left, right] at scanned
          exact (Option.some.inj scanned).symm
      | false =>
          rw [left, right] at scanned
          cases scanned
  | false =>
      cases right : y.isFinite with
      | true =>
          rw [left, right] at scanned
          cases scanned
      | false => exact unscanned_injective x y left right same

-- The default rendering of a number is a faithful decimal of fewest digits.
theorem default_text_shortest : Function.Injective Binary64.text ∧
    ∀ (negative : Bool) (code : Fin 0x7FF0000000000000),
      let x := Binary64.finite negative code
      ∃ p : Positional, x.text = (if negative then ['-'] else []) ++ p.text ∧ p.Trimmed ∧
        Scan.number (Scan.start x.text) = (some x, ⟨Text.bytes x.text, []⟩) ∧
        ∀ (n : Number) (count : ℕ), n.value = x → HasDigits count n.rational →
          HasDigits count p.rational := by
  refine ⟨text_injective, ?_⟩
  intro negative code x
  obtain ⟨p, text, trimmed, _, fewest⟩ := text_positional negative code
  refine ⟨p, text, trimmed, text_scanned negative code, ?_⟩
  intro n count value digits
  exact fewest count _ ((number_value n negative code).1 value).2 (number_digits n count digits)

def numeralDigits (n : Nat) : SomeDigits :=
  ⟨⟨Numeral.ofNat n, fun _ member => Numeral.isDigit_of_mem_ofNat member⟩, Nat.toDigits_ne_nil⟩

-- A tenth can be written with one digit, so that is how it is rendered.
theorem tenth_shortest :
    let x := Binary64.finite false 0x3FB999999999999A
    let n : Number := ⟨none, .whole (numeralDigits 1) none, some ⟨false, some .minus, numeralDigits 1⟩⟩
    n.value = x ∧ HasDigits 1 n.rational ∧
      ∃ p : Positional, ['0', '.', '1'] = p.text ∧ HasDigits 1 p.rational := by
  intro x n
  have value : n.value = x := by decide +kernel
  have digits : HasDigits 1 n.rational := ⟨1, -1, by decide, rfl⟩
  have rendered : x.text = ['0', '.', '1'] := by decide +kernel
  obtain ⟨_, shortest⟩ := default_text_shortest
  obtain ⟨p, text, _, _, fewest⟩ := shortest false 0x3FB999999999999A
  exact ⟨value, digits, p, rendered.symm.trans text, fewest n 1 value digits⟩

end ArithTemplate.Written
