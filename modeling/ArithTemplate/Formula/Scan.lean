import ArithTemplate.Decimal.Literal
import ArithTemplate.Text.Blank

set_option autoImplicit false

/-!
A place in a text that moves forward only: the bytes behind it and the characters ahead.
-/

namespace ArithTemplate

structure Scan where
  position : Nat
  rest : Text
deriving DecidableEq, Repr

namespace Scan

def start (s : Text) : Scan := ⟨0, s⟩

def atEnd (s : Scan) : Bool := s.rest.isEmpty

def peek (s : Scan) : Option Char := s.rest.head?

def bump (s : Scan) : Option Char × Scan :=
  match s.rest with
  | [] => (none, s)
  | c :: rest => (some c, ⟨s.position + c.utf8Size, rest⟩)

def eat (expected : Char) (s : Scan) : Bool × Scan :=
  match s.rest with
  | [] => (false, s)
  | c :: rest => if c = expected then (true, ⟨s.position + c.utf8Size, rest⟩) else (false, s)

def skipBlank (s : Scan) : Scan :=
  ⟨s.position + Text.bytes (s.rest.takeWhile Text.isBlank), s.rest.dropWhile Text.isBlank⟩

def number (s : Scan) : Option Binary64 × Scan :=
  match Literal.scan s.rest with
  | none => (none, s)
  | some (literal, rest) =>
      (some literal.value, ⟨s.position + (s.rest.bytes - rest.bytes), rest⟩)

end Scan
end ArithTemplate
