import ArithTemplate.Rendering.Issue

set_option autoImplicit false

/-!
What is logged about a rendering.
-/

namespace ArithTemplate

inductive Level where
  | warn
  | debug
  | trace
deriving DecidableEq, Repr

inductive Event where
  | evaluated (formula : Formula) (value : Binary64)
  | released (count : Nat)
  | skipped (issue : Issue)
  | unclosed (position : Nat)
  | overflow (capacity : Nat)
  | variableOverflow (capacity : Nat)
deriving DecidableEq, Repr

def Event.level : Event → Level
  | .evaluated _ _ => .debug
  | .released _ => .trace
  | _ => .warn

def Event.message : Event → String
  | .evaluated formula value => String.ofList (formula.print ++ [' ', '=', ' '] ++ value.text)
  | .released count => "released " ++ toString count ++ " expression nodes"
  | .skipped issue =>
      "skipping placeholder at " ++ toString issue.offset ++ ": " ++ issue.cause.message
  | .unclosed position => "unterminated placeholder at " ++ toString position
  | .overflow capacity => "template output truncated at " ++ toString capacity ++ " bytes"
  | .variableOverflow capacity => "variable output truncated at " ++ toString capacity ++ " bytes"

end ArithTemplate
