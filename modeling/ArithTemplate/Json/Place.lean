import ArithTemplate.Json.Flaw

set_option autoImplicit false

/-!
Where in a JSON text a flaw shows: the line, and the bytes of that line read so far.
-/

namespace ArithTemplate.Json

structure Misread where
  flaw : Flaw
  rest : Text
deriving DecidableEq, Repr

structure Place where
  line : Nat
  column : Nat
deriving DecidableEq, Repr

def Place.after (s : Text) : Place :=
  ⟨1 + s.count '\n', Text.bytes (s.reverse.takeWhile (· != '\n'))⟩

def Place.message (p : Place) : String :=
  " at line " ++ toString p.line ++ " column " ++ toString p.column

def Misread.place (m : Misread) (whole : Text) : Place :=
  .after (whole.take (whole.length - m.rest.length))

end ArithTemplate.Json
