import ArithTemplate.Proofs.Rounded.Decimal
import ArithTemplate.Proofs.Written.Number

set_option autoImplicit false

namespace ArithTemplate.Written

def powerValue : Option Power → ℤ
  | none => 0
  | some p => p.exponent.signed (Numeral.value p.digits.text)

-- What a number says, with its exponent as it is written.
def Number.decimal (n : Number) : Decimal where
  coefficient := Numeral.value (n.mantissa.wholeDigits ++ n.mantissa.decimals.getD [])
  exponent := powerValue n.power - (n.mantissa.decimals.getD []).length

def Number.rational (n : Number) : ℚ := n.decimal.rational

theorem magnitude_coefficient (n : Number) :
    n.literal.magnitude.coefficient = n.decimal.coefficient :=
  Numeral.valueInBlocks_eq_value _

theorem literal_decimal (n : Number)
    (counts : ∀ p, n.power = some p → Numeral.value p.digits.text < 10 * Exponent.bound) :
    n.literal.magnitude = n.decimal := by
  have exponent : ((n.power.map Power.exponent).map Exponent.counted).getD 0 = powerValue n.power := by
    cases power : n.power with
    | none => rfl
    | some p =>
        refine (Exponent.counted_of_lt p.exponent (counts p power)).trans ?_
        rw [Exponent.written, Numeral.valueInBlocks_eq_value]
        rfl
  refine congr (congrArg Decimal.mk (magnitude_coefficient n)) ?_
  exact congrArg (· - ((n.mantissa.decimals.getD []).length : ℤ)) exponent

theorem number_value (n : Number) (negative : Bool) (code : Fin 0x7FF0000000000000) :
    n.value = .finite negative code ↔
      isMinus n.sign = negative ∧ Binary64.ReadAs code n.literal.magnitude.rational :=
  Binary64.of_decimal_iff _ _ _ _

-- A number is read as the one nearest to what it says, if all digits of its exponent count.
theorem number_value_iff (n : Number) (negative : Bool) (code : Fin 0x7FF0000000000000)
    (counts : ∀ p, n.power = some p → Numeral.value p.digits.text < 10 * Exponent.bound) :
    n.value = .finite negative code ↔
      isMinus n.sign = negative ∧ Binary64.ReadAs code n.rational := by
  rw [number_value, literal_decimal n counts]
  rfl

end ArithTemplate.Written
