import ArithTemplate.Binary64.Basic
import ArithTemplate.Decimal.Basic

set_option autoImplicit false

/-!
Between binary and decimal numbers: the binary number nearest to a decimal one, the decimal digits
of a binary number to a given place, and the shortest decimal that reads back.
-/

namespace ArithTemplate.Binary64

-- The number nearest to a decimal, with the given sign. Decimals too large or too small for the
-- range are decided by their exponent alone: ten to the power n is at least two to the power n, and a
-- coefficient is less than two to the power of its bits.
def ofDecimal (negative : Bool) (d : Decimal) : Binary64 :=
  if d.coefficient = 0 then zero negative
  else
    match d.exponent with
    | .ofNat n =>
        if 1024 ≤ n then .infinite negative
        else ofRatio negative (d.coefficient * Nat.pow 10 n * unitsPerOne) 1
    | .negSucc n =>
        if Nat.log2 d.coefficient + 1076 ≤ n then zero negative
        else ofRatio negative (d.coefficient * unitsPerOne) (Nat.pow 10 (n + 1))

-- A unit is 5 ^ 1074 / 10 ^ 1074, so every finite number has an exact decimal of 1074 places.
def exactPlaces : Nat := 1074

def exactDigits (code : Nat) : Nat := units code * Nat.pow 5 1074

-- The magnitude times `10 ^ places`, rounded to a whole number, a half to even.
def scaledBy (places code : Nat) : Nat := roundHalfEven (units code * Nat.pow 10 places) unitsPerOne

-- The magnitude rounded to `count` significant digits, a half to even, as a decimal whose
-- coefficient has `count` digits. Zero is all zeros, at the exponent that makes it `0.00…`.
def significant (count code : Nat) : Decimal :=
  if code = 0 then ⟨0, 1 - (count : Int)⟩
  else
    let exact := exactDigits code
    let length := Numeral.count exact
    let rounded := roundHalfEven (exact * Nat.pow 10 count) (Nat.pow 10 length)
    let exponent : Int := (length : Int) - exactPlaces - count
    if rounded = Nat.pow 10 count then ⟨Nat.pow 10 (count - 1), exponent + 1⟩
    else ⟨rounded, exponent⟩

-- Whether `coefficient * 10 ^ scale`, in units of `10 ^ -exactPlaces`, reads back as the code.
def readsBack (code coefficient scale : Nat) : Bool :=
  code == nearestCode (coefficient * Nat.pow 10 scale) (Nat.pow 5 1074)

-- Which of two neighbouring decimals stands for a number halfway between them.
inductive Tie where
  | up
  | even
deriving DecidableEq, Repr

def Tie.choose (lower : Nat) : Tie → Nat
  | .up => lower + 1
  | .even => lower + lower % 2

-- The multiple of `10 ^ scale` next to the exact value that reads back as the code, the nearer one
-- if both neighbours do.
def neighbour (tie : Tie) (code scale : Nat) : Option Nat :=
  let exact := exactDigits code
  let lower := exact / Nat.pow 10 scale
  let upper := lower + 1
  match readsBack code lower scale, readsBack code upper scale with
  | true, true =>
      let twice := 2 * (exact % Nat.pow 10 scale)
      if twice < Nat.pow 10 scale then some lower
      else if Nat.pow 10 scale < twice then some upper
      else some (tie.choose lower)
  | true, false => some lower
  | false, true => some upper
  | false, false => none

-- The first coefficient that reads back when the grid gets finer from `10 ^ scale` on, with the
-- scale it was found at. The finest grid holds the exact value.
def coarsest (tie : Tie) (code : Nat) : Nat → Nat × Nat
  | 0 => (exactDigits code, 0)
  | scale + 1 =>
      match neighbour tie code (scale + 1) with
      | some coefficient => (coefficient, scale + 1)
      | none => coarsest tie code scale

-- The decimal of fewest digits that reads back as the code, and the nearest such one.
def shortest (tie : Tie) (code : Nat) : Decimal :=
  if code = 0 then ⟨0, 0⟩
  else
    let length := Numeral.count (exactDigits code)
    let (coefficient, scale) := coarsest tie code (length - 1)
    -- Only a lone nine can carry, into a power of ten that has one digit less than it shows.
    if coefficient = 10 then ⟨1, (scale : Int) + 1 - exactPlaces⟩
    else ⟨coefficient, (scale : Int) - exactPlaces⟩

-- The default rendering: shortest digits in positional notation, a half going up.
def text : Binary64 → Text
  | .nan => ['N', 'a', 'N']
  | .infinite negative => (if negative then ['-'] else []) ++ ['i', 'n', 'f']
  | .finite negative code => (if negative then ['-'] else []) ++ (shortest .up code).plain

end ArithTemplate.Binary64
