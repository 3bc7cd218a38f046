import ArithTemplate.Binary64.Decimal
import ArithTemplate.Formula.Basic
import ArithTemplate.Text.Quoted

set_option autoImplicit false

/-!
Formulas written out, with parentheses around every operation.
-/

namespace ArithTemplate

def Formula.print : Formula → Text
  | .constant value => value.text
  | .text content => content.quoted
  | .binary operation left right =>
      '(' :: left.print ++ ' ' :: operation.symbol :: ' ' :: right.print ++ [')']

def TextOperand.message (e : TextOperand) : String :=
  "malformed tree: text node " ++ String.ofList e.content.quoted ++ " has no numeric value"

end ArithTemplate
