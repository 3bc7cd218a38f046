import ArithTemplate.Binary64.Arithmetic
import ArithTemplate.Text.Basic

set_option autoImplicit false

/-!
Formulas: numbers combined by the four operations. A text may stand in place of a number, but has no
value.
-/

namespace ArithTemplate

inductive Operation where
  | add
  | sub
  | mul
  | div
deriving DecidableEq, Repr

inductive Formula where
  | constant (value : Binary64)
  | text (content : Text)
  | binary (operation : Operation) (left right : Formula)
deriving DecidableEq, Repr

structure TextOperand where
  content : Text
deriving DecidableEq, Repr

def Operation.apply : Operation → Binary64 → Binary64 → Binary64
  | .add => Binary64.add
  | .sub => Binary64.sub
  | .mul => Binary64.mul
  | .div => Binary64.div

def Operation.symbol : Operation → Char
  | .add => '+'
  | .sub => '-'
  | .mul => '*'
  | .div => '/'

namespace Formula

def size : Formula → Nat
  | .constant _ => 1
  | .text _ => 1
  | .binary _ left right => left.size + right.size + 1

def pileSize : List Formula → Nat
  | [] => 0
  | f :: pile => f.size + pileSize pile

-- Takes the formulas of a pile apart, the uppermost first, and counts each constant, text and
-- operation it comes to. The operands of an operation go back onto the pile, the left one on top.
def tally (count : Nat) : List Formula → Nat
  | [] => count
  | .constant _ :: pile => tally (count + 1) pile
  | .text _ :: pile => tally (count + 1) pile
  | .binary _ left right :: pile => tally (count + 1) (left :: right :: pile)
termination_by pile => pileSize pile
decreasing_by
  all_goals
    simp only [pileSize, size]
    omega

def evaluate : Formula → Except TextOperand Binary64
  | .constant value => .ok value
  | .text content => .error ⟨content⟩
  | .binary operation left right =>
      match left.evaluate with
      | .error e => .error e
      | .ok x =>
          match right.evaluate with
          | .error e => .error e
          | .ok y => .ok (operation.apply x y)

def equal : Formula → Formula → Bool
  | .constant x, .constant y => x.equal y
  | .text s, .text t => s == t
  | .binary operation left right, .binary operation' left' right' =>
      operation == operation' && left.equal left' && right.equal right'
  | _, _ => false

end Formula
end ArithTemplate
