import ArithTemplate.Formula.Basic
import ArithTemplate.Formula.Scan
import ArithTemplate.Misfit

set_option autoImplicit false

/-!
Reading formulas. A sum is a chain of products, a product a chain of operands, an operand a number
or a sum in parentheses; chains associate to the left. Strict reading refuses a text that does not
fit. Lenient reading takes zero for a missing operand and any character for a closing parenthesis,
and leaves what follows the formula unread. Nesting and size are limited in both.
-/

namespace ArithTemplate

inductive Strictness where
  | strict
  | lenient
deriving DecidableEq, Repr

namespace Formula

inductive Flaw where
  | nestedTooDeep
  | tooLarge
  | unclosed (start : Nat)
  | operandMissing (found : Option Char)
  | leftOver (found : Char)
deriving DecidableEq, Repr

def nestingLimit : Nat := 128

def sizeLimit : Nat := 4096

structure Progress where
  scan : Scan
  made : Nat
deriving DecidableEq, Repr

abbrev Reader := Progress → Except (Misfit Flaw) (Formula × Progress)

def counted (formula : Formula) : Reader := fun p =>
  if sizeLimit ≤ p.made then .error ⟨.tooLarge, p.scan.position⟩
  else .ok (formula, ⟨p.scan, p.made + 1⟩)

-- A number, or what `nested` reads in parentheses; without `nested` the limit is reached.
def operand (strictness : Strictness) (nested : Option Reader) : Reader := fun p =>
  let start := p.scan.skipBlank
  match start.eat '(' with
  | (true, inside) =>
      match nested with
      | none => .error ⟨.nestedTooDeep, start.position⟩
      | some read =>
          match read ⟨inside, p.made⟩ with
          | .error e => .error e
          | .ok (formula, q) =>
              match strictness, q.scan.eat ')' with
              | .strict, (true, after) => .ok (formula, ⟨after, q.made⟩)
              | .strict, (false, _) => .error ⟨.unclosed start.position, q.scan.position⟩
              | .lenient, _ => .ok (formula, ⟨q.scan.bump.2, q.made⟩)
  | (false, _) =>
      match start.number, strictness with
      | (some value, after), _ => counted (.constant value) ⟨after, p.made⟩
      | (none, _), .lenient => counted (.constant (.zero false)) ⟨start, p.made⟩
      | (none, _), .strict => .error ⟨.operandMissing start.peek, start.position⟩

-- Joins operands to `left` as long as one of the operations follows. Every round takes a
-- character, so the length of the text bounds the rounds.
def chain (operation? : Char → Option Operation) (read : Reader) : Nat → Formula → Reader
  | 0, left, p => .ok (left, p)
  | rounds + 1, left, p =>
      let next := p.scan.skipBlank
      match next.peek.bind operation? with
      | none => .ok (left, ⟨next, p.made⟩)
      | some operation =>
          match read ⟨next.bump.2, p.made⟩ with
          | .error e => .error e
          | .ok (right, q) =>
              match counted (.binary operation left right) q with
              | .error e => .error e
              | .ok (joined, r) => chain operation? read rounds joined r

def chained (operation? : Char → Option Operation) (read : Reader) : Reader := fun p =>
  match read p with
  | .error e => .error e
  | .ok (first, q) => chain operation? read q.scan.rest.length first q

def product? : Char → Option Operation
  | '*' => some .mul
  | '/' => some .div
  | _ => none

def sum? : Char → Option Operation
  | '+' => some .add
  | '-' => some .sub
  | _ => none

def sum (strictness : Strictness) (nested : Option Reader) : Reader :=
  chained sum? (chained product? (operand strictness nested))

-- A sum in which `depth` more parentheses may be open at once.
def sumWithin (strictness : Strictness) : Nat → Reader
  | 0 => sum strictness none
  | depth + 1 => sum strictness (some (sumWithin strictness depth))

structure Reading where
  formula : Formula
  made : Nat
deriving DecidableEq, Repr

-- A formula that was not read, with what it is made of counted afterwards.
def Reading.ofFormula (formula : Formula) : Reading := ⟨formula, tally 0 [formula]⟩

-- How much there is to give back, whatever was counted before.
def Reading.release (reading : Reading) : Nat := tally 0 [reading.formula]

def read (strictness : Strictness) (s : Text) : Except (Misfit Flaw) Reading :=
  match sumWithin strictness nestingLimit ⟨.start s, 0⟩ with
  | .error e => .error e
  | .ok (formula, p) =>
      let rest := p.scan.skipBlank
      match strictness, rest.peek with
      | .strict, some found => .error ⟨.leftOver found, rest.position⟩
      | _, _ => .ok ⟨formula, p.made⟩

def Flaw.message : Flaw → String
  | .nestedTooDeep => "expression nesting exceeds max depth of " ++ toString nestingLimit
  | .tooLarge => "expression exceeds max node count of " ++ toString sizeLimit
  | .unclosed start => "expected ')' to close '(' at " ++ toString start
  | .operandMissing (some found) =>
      "expected number or '(' but found '" ++ found.toString ++ "'"
  | .operandMissing none => "expected number or '(' but reached end of expression"
  | .leftOver found => "unexpected '" ++ found.toString ++ "' after expression"

end Formula
end ArithTemplate
