import ArithTemplate.ConfigError
import ArithTemplate.Json.Reading
import ArithTemplate.Substitution

set_option autoImplicit false

/-!
Bindings in JSON: an object of numbers. The last value of a name counts, and the names come in the
order of their bytes, which is that of their code points. Names are judged once all of the text is
read.
-/

namespace ArithTemplate

def Bindings.insert (name : Text) (value : Binary64) : Bindings → Bindings
  | [] => [(name, value)]
  | (other, x) :: rest =>
      if name = other then (name, value) :: rest
      else if name < other then (name, value) :: (other, x) :: rest
      else (other, x) :: insert name value rest

namespace Json

def bindingsMember (bindings : Bindings) (name s : Text) : Except Misread (Bindings × Text) := do
  let start := skipBlank (← colon s)
  if startsNumber start then
    let (value, rest) ← number start
    return (bindings.insert name value.toBinary64, rest)
  else .error (refusal .number start)

def bindings (s : Text) : Except Misread Bindings := do
  let start := skipBlank s
  match start with
  | '{' :: inside =>
      let (found, rest) ← members bindingsMember inside.length true [] inside
      finish rest
      return found
  | _ => .error (refusal .bindings start)

end Json

def Bindings.ofJson (s : Text) : Except ConfigError Bindings := do
  let found ← (Json.bindings s).mapError fun misread => .bindings misread.flaw (misread.place s)
  match found.find? fun (name, _) => !Bindings.isName name with
  | some (name, _) => .error (.variableName name)
  | none => return found

end ArithTemplate
