import ArithTemplate.Formula.Print
import ArithTemplate.Formula.Reading
import ArithTemplate.Pattern.Reading

set_option autoImplicit false

/-!
What can go wrong in a rendering, and where.
-/

namespace ArithTemplate

inductive Cause where
  | formula (misfit : Misfit Formula.Flaw)
  | operand (e : TextOperand)
  | pattern (misfit : Misfit Pattern.Flaw)
  | unclosed (position : Nat)
  | overflow (capacity : Nat)
deriving DecidableEq, Repr

def Cause.message : Cause → String
  | .formula misfit => misfit.message Formula.Flaw.message
  | .operand e => e.message
  | .pattern misfit => misfit.message Pattern.Flaw.message
  | .unclosed position => "unterminated placeholder starting at " ++ toString position
  | .overflow capacity => "output truncated at capacity " ++ toString capacity

structure Issue where
  offset : Nat
  cause : Cause
deriving DecidableEq, Repr

end ArithTemplate
