import ArithTemplate.ConfigError
import ArithTemplate.Json.Reading
import ArithTemplate.Rendering.Basic

set_option autoImplicit false

/-!
Settings in JSON: an object with the members `capacity` and `mode`, or an array of the two in this
order. Missing ones keep their defaults.
-/

namespace ArithTemplate.Json

structure Given where
  capacity : Option Nat
  mode : Option Strictness
deriving DecidableEq, Repr

def Given.settings (g : Given) : Settings :=
  { capacity := g.capacity.getD ({} : Settings).capacity
    strictness := g.mode.getD ({} : Settings).strictness }

def field? (name : Text) : Option Field :=
  if name = ['c', 'a', 'p', 'a', 'c', 'i', 't', 'y'] then some .capacity
  else if name = ['m', 'o', 'd', 'e'] then some .mode
  else none

def strictness? (name : Text) : Option Strictness :=
  if name = ['s', 't', 'r', 'i', 'c', 't'] then some .strict
  else if name = ['l', 'e', 'n', 'i', 'e', 'n', 't'] then some .lenient
  else none

def capacity (s : Text) : Except Misread (Nat × Text) :=
  let start := skipBlank s
  if startsNumber start then
    match number start with
    | .error misread => .error misread
    | .ok (.natural n, rest) => .ok (n, rest)
    | .ok (.negative n, rest) => .error ⟨.negativeCapacity n, rest⟩
    | .ok (.float x, rest) => .error ⟨.wrongKind (.float x) .capacity, rest⟩
  else .error (refusal .capacity start)

def modeName (s : Text) : Except Misread (Strictness × Text) := do
  let (name, rest) ← string s
  match strictness? name with
  | some mode => return (mode, rest)
  | none => .error ⟨.unknownVariant name, rest⟩

def null (s : Text) : Except Misread Text :=
  match skipBlank s with
  | 'n' :: 'u' :: 'l' :: 'l' :: rest => .ok rest
  | other => .error (refusal .null other)

-- A string, or an object whose only member is named by the mode and has the value null.
def mode (s : Text) : Except Misread (Strictness × Text) :=
  match skipBlank s with
  | '"' :: rest => modeName rest
  | '{' :: rest =>
      match skipBlank rest with
      | '"' :: name => do
          let (mode, afterName) ← modeName name
          let afterColon ← colon afterName
          let afterNull ← null afterColon
          match skipBlank afterNull with
          | '}' :: after => return (mode, after)
          | other => .error ⟨.malformed, other⟩
      | other => .error (refusal .variant other)
  | other => .error ⟨.malformed, other⟩

def pastBrace (s : Text) : Text :=
  match skipBlank s with
  | '}' :: rest => rest
  | rest => rest

-- A name is judged before its value is read. One that is refused shows after the name, and after
-- the object where nothing follows the name in it.
def settingsMember (given : Given) (name s : Text) : Except Misread (Given × Text) :=
  match field? name with
  | none => .error ⟨.unknownField name, pastBrace s⟩
  | some .capacity =>
      if given.capacity.isSome then .error ⟨.repeatedField .capacity, pastBrace s⟩
      else do
        let afterColon ← colon s
        let (value, rest) ← capacity afterColon
        return ({ given with capacity := some value }, rest)
  | some .mode =>
      if given.mode.isSome then .error ⟨.repeatedField .mode, pastBrace s⟩
      else do
        let afterColon ← colon s
        let (value, rest) ← mode afterColon
        return ({ given with mode := some value }, rest)

def settingsArray (s : Text) : Except Misread (Given × Text) := do
  match skipBlank s with
  | ']' :: rest => return (⟨none, none⟩, rest)
  | _ =>
      let (first, afterFirst) ← capacity s
      match skipBlank afterFirst with
      | ']' :: rest => return (⟨some first, none⟩, rest)
      | ',' :: afterComma =>
          let (second, afterSecond) ← mode afterComma
          match skipBlank afterSecond with
          | ']' :: rest => return (⟨some first, some second⟩, rest)
          | other => .error ⟨.malformed, other⟩
      | other => .error ⟨.malformed, other⟩

def settings (s : Text) : Except Misread Settings := do
  let start := skipBlank s
  let (given, rest) ←
    match start with
    | '{' :: inside => members settingsMember inside.length true ⟨none, none⟩ inside
    | '[' :: inside => settingsArray inside
    | _ => .error (refusal .settings start)
  finish rest
  return given.settings

end ArithTemplate.Json

namespace ArithTemplate

def Settings.ofJson (s : Text) : Except ConfigError Settings :=
  (Json.settings s).mapError fun misread => .settings misread.flaw (misread.place s)

end ArithTemplate
