set_option autoImplicit false

/-!
Why a text does not fit its grammar.
-/

namespace ArithTemplate

structure Misfit (Flaw : Type) where
  flaw : Flaw
  position : Nat
deriving DecidableEq, Repr

def Misfit.message {Flaw : Type} (describe : Flaw → String) (m : Misfit Flaw) : String :=
  "syntax error at " ++ toString m.position ++ ": " ++ describe m.flaw

end ArithTemplate
