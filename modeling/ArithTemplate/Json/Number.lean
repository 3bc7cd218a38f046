import ArithTemplate.Binary64.Arithmetic
import ArithTemplate.Decimal.Literal
import ArithTemplate.Json.Place

set_option autoImplicit false

/-!
JSON numbers. Integers of 64 bits are kept as they are. Of any other number the digits are gathered
in a word of 64 bits for as long as they fit, and the word is scaled by a power of ten in floating
point, each step rounded.
-/

namespace ArithTemplate.Json

inductive Number where
  | natural (n : Nat)
  | negative (n : Int)
  | float (x : Binary64)
deriving DecidableEq, Repr

def wholeToBinary (negative : Bool) (n : Nat) : Binary64 :=
  .ofRatio negative (n * Binary64.unitsPerOne) 1

def Number.toBinary64 : Number → Binary64
  | .natural n => wholeToBinary false n
  | .negative n => wholeToBinary true n.natAbs
  | .float x => x

def fraction? (s : Text) : Option (Option Text × Text) :=
  match s with
  | '.' :: rest =>
      let (digits, after) := Numeral.span rest
      if digits = [] then none else some (some digits, after)
  | _ => some (none, s)

def exponent? (s : Text) : Option (Option Exponent × Text) :=
  match s with
  | letter :: rest =>
      if letter = 'e' ∨ letter = 'E' then
        (Literal.exponentDigits rest).map fun (exponent, after) => (some exponent, after)
      else some (none, s)
  | [] => some (none, [])

-- A number as it is written at the start of a text. Only a minus is a sign, a zero leads no other
-- digit, and every part that is begun has a digit.
def literal? (s : Text) : Option (Literal × Text) := do
  let (negative, unsigned) :=
    match s with
    | '-' :: rest => (true, rest)
    | _ => (false, s)
  let (whole, afterWhole) := Numeral.span unsigned
  if whole = [] ∨ (whole.head? = some '0' ∧ whole ≠ ['0']) then none
  else do
    let (fraction, afterFraction) ← fraction? afterWhole
    let (exponent, rest) ← exponent? afterFraction
    return (⟨negative, whole, fraction, exponent⟩, rest)

-- Appends digits to `word` while the result fits 64 bits; then how many were left.
def gather : Text → Nat → Nat × Nat
  | [], word => (word, 0)
  | d :: rest, word =>
      let next := 10 * word + (d.toNat - '0'.toNat)
      if next < Numeral.wordLimit then gather rest next else (word, rest.length + 1)

def powerOfTen (n : Nat) : Binary64 := .ofDecimal false ⟨1, n⟩

def largestPower : Nat := 308

-- Division by `10 ^ n` in steps of at most the largest power; a zero is not divided further.
def scaleDown (x : Binary64) (n : Nat) : Binary64 :=
  if n ≤ largestPower then x.div (powerOfTen n)
  else if x = .zero false then x
  else scaleDown (x.div (powerOfTen largestPower)) (n - largestPower)
termination_by n
decreasing_by simp only [largestPower] at *; omega

def scaleUp (x : Binary64) (n : Nat) : Except Flaw Binary64 :=
  if n ≤ largestPower then
    let product := x.mul (powerOfTen n)
    if product.isFinite then .ok product else .error .outOfRange
  else if x = .zero false then .ok x
  else .error .outOfRange

def scaled (word : Nat) (exponent : Int) : Except Flaw Binary64 :=
  match exponent with
  | .ofNat n => scaleUp (wholeToBinary false word) n
  | .negSucc n => .ok (scaleDown (wholeToBinary false word) (n + 1))

def largestExponent : Nat := 0x7FFFFFFF

def signedLimit : Nat := 0x8000000000000000

-- The integer of a sign and a word. One below the smallest signed integer becomes floating, and so
-- does a negative zero.
def integer (negative : Bool) (n : Nat) : Number :=
  if negative = false then .natural n
  else if n = 0 ∨ signedLimit < n then .float (wholeToBinary true n)
  else .negative (-(n : Int))

-- The number a literal stands for. Whole digits that do not fit the word count in the exponent;
-- those of the fraction do not.
def numberOf (l : Literal) : Except Flaw Number :=
  let (whole, dropped) := gather l.whole 0
  if l.fraction = none ∧ l.exponent = none ∧ dropped = 0 then .ok (integer l.negative whole)
  else
    let fraction := l.fraction.getD []
    let (word, left) := gather fraction whole
    let written := (l.exponent.map Exponent.written).getD 0
    let magnitude :=
      if largestExponent < written.natAbs then
        if word ≠ 0 ∧ 0 < written then .error .outOfRange else .ok (.zero false)
      else scaled word (dropped - ((fraction.length : Int) - left) + written)
    magnitude.map fun x => .float (if l.negative then x.neg else x)

def number (s : Text) : Except Misread (Number × Text) :=
  match literal? s with
  | none => .error ⟨.malformed, s⟩
  | some (literal, rest) =>
      match numberOf literal with
      | .ok n => .ok (n, rest)
      | .error flaw => .error ⟨flaw, rest⟩

end ArithTemplate.Json
