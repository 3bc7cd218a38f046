import ArithTemplate.Decimal.Numeral

set_option autoImplicit false

/-!
Decimal numbers `coefficient * 10 ^ exponent` and their positional notation.
-/

namespace ArithTemplate

structure Decimal where
  coefficient : Nat
  exponent : Int
deriving DecidableEq, Repr

namespace Decimal

def fixed (places n : Nat) : Text :=
  let digits := Numeral.padded (places + 1) n
  let whole := digits.take (digits.length - places)
  if places = 0 then whole else whole ++ '.' :: digits.drop (digits.length - places)

def plain (d : Decimal) : Text :=
  match d.exponent with
  | .ofNat zeros => Numeral.ofNat (d.coefficient * Nat.pow 10 zeros)
  | .negSucc n => fixed (n + 1) d.coefficient

end Decimal
end ArithTemplate
