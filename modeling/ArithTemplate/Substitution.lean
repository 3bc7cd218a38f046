import ArithTemplate.Rendering.Event
import ArithTemplate.Rendering.Sink

set_option autoImplicit false

/-!
Variables. A bound name between two underscores gives way to the default rendering of its value;
all other text stays.
-/

namespace ArithTemplate

-- Names and values; the first binding of a name counts.
abbrev Bindings := List (Text × Binary64)

namespace Bindings

def isName (s : Text) : Bool := !s.isEmpty && s.all Char.isAlphanum

def value? (bindings : Bindings) (name : Text) : Option Binary64 :=
  if isName name then (bindings.find? (·.1 == name)).map (·.2) else none

-- An underscore that closes no name may open the next one.
def replace (bindings : Bindings) (s : Text) : Text :=
  match opened : Text.cut '_' s with
  | none => s
  | some (before, inside) =>
      have shorter : inside.length < s.length := Text.length_lt_of_cut opened
      match closed : Text.cut '_' inside with
      | none => before ++ '_' :: inside
      | some (name, rest) =>
          have : rest.length < s.length := Nat.lt_trans (Text.length_lt_of_cut closed) shorter
          match bindings.value? name with
          | some value => before ++ value.text ++ replace bindings rest
          | none => before ++ '_' :: replace bindings inside
termination_by s.length

def replaceWithin (bindings : Bindings) (capacity : Nat) (s : Text) : Text × List Event :=
  let sink := (Sink.empty capacity).push (bindings.replace s)
  (sink.text, if sink.full then [.variableOverflow capacity] else [])

end Bindings
end ArithTemplate
