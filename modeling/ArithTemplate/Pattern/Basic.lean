import ArithTemplate.Binary64.Decimal

set_option autoImplicit false

/-!
Patterns in the manner of printf: literal text around one directive, which says how a number is
written. Here are the directive and the texts it produces.
-/

namespace ArithTemplate

inductive Conversion where
  | fixed
  | scientific
  | general
deriving DecidableEq, Repr

structure Directive where
  leftAlign : Bool
  plus : Bool
  space : Bool
  zeroPad : Bool
  alternate : Bool
  width : Nat
  precision : Nat
  conversion : Conversion
  upper : Bool
deriving DecidableEq, Repr

structure Pattern where
  leading : Text
  directive : Directive
  trailing : Text
deriving DecidableEq, Repr

namespace Directive

def stripFraction (s : Text) : Text :=
  if '.' ∈ s then ((s.reverse.dropWhile (· == '0')).dropWhile (· == '.')).reverse else s

-- The exponent part: a sign and at least two digits.
def exponentText (exponent : Int) : Text :=
  'e' :: (if exponent < 0 then '-' else '+') :: Numeral.padded 2 exponent.natAbs

def fixedText (precision : Nat) (alternate : Bool) (code : Nat) : Text :=
  Decimal.fixed precision (Binary64.scaledBy precision code) ++
    if alternate && precision == 0 then ['.'] else []

def mantissa (precision code : Nat) : Text × Int :=
  let rounded := Binary64.significant (precision + 1) code
  (Decimal.fixed precision rounded.coefficient, rounded.exponent + precision)

def scientificText (precision : Nat) (alternate : Bool) (code : Nat) : Text :=
  let (digits, exponent) := mantissa precision code
  digits ++ (if alternate && precision == 0 then ['.'] else []) ++ exponentText exponent

-- Positional when the power of ten is at least -4 and below the number of significant digits,
-- with an exponent otherwise; zeros at the end of the fraction go unless `alternate` keeps them.
def generalText (precision : Nat) (alternate : Bool) (code : Nat) : Text :=
  let count := max precision 1
  let (digits, exponent) := mantissa (count - 1) code
  let strip := if alternate then id else stripFraction
  if -4 ≤ exponent ∧ exponent < count then
    let decimals := ((count : Int) - 1 - exponent).toNat
    strip (Decimal.fixed decimals (Binary64.scaledBy decimals code))
  else strip digits ++ exponentText exponent

def body (d : Directive) (x : Binary64) : Text :=
  let plain :=
    match x with
    | .nan => ['n', 'a', 'n']
    | .infinite _ => ['i', 'n', 'f']
    | .finite _ code =>
        match d.conversion with
        | .fixed => fixedText d.precision d.alternate code
        | .scientific => scientificText d.precision d.alternate code
        | .general => generalText d.precision d.alternate code
  if d.upper then plain.map Char.toUpper else plain

def sign (d : Directive) (x : Binary64) : Text :=
  if x.isNegative then ['-'] else if d.plus then ['+'] else if d.space then [' '] else []

-- Sign and body, filled up to the width: blanks behind, zeros between, or blanks before. Zeros
-- fill finite numbers only, and blanks behind have precedence.
def render (d : Directive) (x : Binary64) : Text :=
  let sign := d.sign x
  let body := d.body x
  let missing := d.width - (sign.length + body.length)
  if d.leftAlign then sign ++ body ++ List.replicate missing ' '
  else if d.zeroPad && x.isFinite then sign ++ List.replicate missing '0' ++ body
  else List.replicate missing ' ' ++ sign ++ body

end Directive

def Pattern.render (p : Pattern) (x : Binary64) : Text :=
  p.leading ++ p.directive.render x ++ p.trailing

end ArithTemplate
