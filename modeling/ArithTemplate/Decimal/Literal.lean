import ArithTemplate.Binary64.Decimal

set_option autoImplicit false

/-!
Number literals: an optional sign, digits with an optional point, and an optional exponent. A
literal takes as many characters as it can, and denotes the binary number nearest to its decimal.
An exponent takes digits until it has reached 65536; those after that do not count.
-/

namespace ArithTemplate

structure Exponent where
  negative : Bool
  digits : Text
deriving DecidableEq, Repr

namespace Exponent

def signed (e : Exponent) (n : Nat) : Int := if e.negative then -(n : Int) else n

def written (e : Exponent) : Int := e.signed (Numeral.valueInBlocks e.digits)

-- An exponent that has come this far takes no more digits.
def bound : Nat := 0x10000

def take (n : Nat) (c : Char) : Nat := if n < bound then 10 * n + (c.toNat - '0'.toNat) else n

-- The number that counts: that of the first digits, as many as it takes to reach the bound.
def counted (e : Exponent) : Int := e.signed (e.digits.foldl take 0)

theorem le_foldl_value (digits : Text) (n : Nat) :
    n ≤ digits.foldl (fun n c => 10 * n + (c.toNat - '0'.toNat)) n := by
  induction digits generalizing n with
  | nil => exact Nat.le_refl n
  | cons c rest ih =>
      have step := ih (10 * n + (c.toNat - '0'.toNat))
      simp only [List.foldl_cons]
      omega

theorem foldl_take_of_lt (digits : Text) (n : Nat)
    (h : digits.foldl (fun n c => 10 * n + (c.toNat - '0'.toNat)) n < 10 * bound) :
    digits.foldl take n = digits.foldl (fun n c => 10 * n + (c.toNat - '0'.toNat)) n := by
  induction digits generalizing n with
  | nil => rfl
  | cons c rest ih =>
      simp only [List.foldl_cons] at h ⊢
      have below := le_foldl_value rest (10 * n + (c.toNat - '0'.toNat))
      have small : n < bound := by omega
      rw [take, if_pos small]
      exact ih _ h

theorem counted_of_lt (e : Exponent) (h : Numeral.value e.digits < 10 * bound) :
    e.counted = e.written := by
  rw [counted, written, Numeral.valueInBlocks_eq_value, foldl_take_of_lt e.digits 0 h]
  rfl

end Exponent

structure Literal where
  negative : Bool
  whole : Text
  fraction : Option Text
  exponent : Option Exponent
deriving DecidableEq, Repr

namespace Literal

def magnitude (l : Literal) : Decimal :=
  let fraction := l.fraction.getD []
  let exponent := (l.exponent.map Exponent.counted).getD 0
  ⟨Numeral.valueInBlocks (l.whole ++ fraction), exponent - fraction.length⟩

def value (l : Literal) : Binary64 := Binary64.ofDecimal l.negative l.magnitude

def sign : Text → Bool × Text
  | '-' :: rest => (true, rest)
  | '+' :: rest => (false, rest)
  | s => (false, s)

-- The digits after a point. A point counts only with a digit on one of its sides.
def fractionSpan (whole s : Text) : Option Text × Text :=
  match s with
  | '.' :: rest =>
      let (digits, after) := Numeral.span rest
      if whole = [] ∧ digits = [] then (none, s) else (some digits, after)
  | _ => (none, s)

def exponentDigits (s : Text) : Option (Exponent × Text) :=
  let (negative, unsigned) := sign s
  let (digits, rest) := Numeral.span unsigned
  if digits = [] then none
  else some (⟨negative, digits⟩, rest)

-- The exponent. Its letter counts only with a digit after it.
def exponentSpan (s : Text) : Option Exponent × Text :=
  match s with
  | letter :: rest =>
      if letter = 'e' ∨ letter = 'E' then
        match exponentDigits rest with
        | some (exponent, after) => (some exponent, after)
        | none => (none, s)
      else (none, s)
  | [] => (none, [])

def scan (s : Text) : Option (Literal × Text) :=
  let (negative, unsigned) := sign s
  let (whole, afterWhole) := Numeral.span unsigned
  let (fraction, afterFraction) := fractionSpan whole afterWhole
  if whole = [] ∧ fraction = none then none
  else
    let (exponent, rest) := exponentSpan afterFraction
    some (⟨negative, whole, fraction, exponent⟩, rest)

def ofText? (s : Text) : Option Literal :=
  match scan s with
  | some (l, []) => some l
  | _ => none

end Literal
end ArithTemplate
