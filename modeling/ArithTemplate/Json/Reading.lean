import ArithTemplate.Json.Number
import ArithTemplate.Json.Quoted

set_option autoImplicit false

/-!
The parts of JSON that values of every kind share: blanks, strings, the members of an object, and
the refusal of a value of another kind than the expected one.
-/

namespace ArithTemplate.Json

def isBlank (c : Char) : Bool := c == ' ' || c == '\n' || c == '\t' || c == '\r'

def skipBlank (s : Text) : Text := s.dropWhile isBlank

def string (s : Text) : Except Misread (Text × Text) :=
  match string? s with
  | some found => .ok found
  | none => .error ⟨.malformed, s⟩

def colon (s : Text) : Except Misread Text :=
  match skipBlank s with
  | ':' :: rest => .ok rest
  | other => .error ⟨.malformed, other⟩

def finish (s : Text) : Except Misread Unit :=
  let rest := skipBlank s
  if rest = [] then .ok () else .error ⟨.malformed, rest⟩

def startsNumber : Text → Bool
  | [] => false
  | c :: _ => c == '-' || c.isDigit

def Number.found : Number → Found
  | .natural n => .integer n
  | .negative n => .integer n
  | .float x => .float x

-- The kind of value a text starts with, as far as it shows at the start, and what is left: a word,
-- a number or a string is read to its end, an array or an object is known by its bracket.
def found (s : Text) : Except Misread (Found × Text) :=
  match s with
  | 'n' :: 'u' :: 'l' :: 'l' :: rest => .ok (.null, rest)
  | 't' :: 'r' :: 'u' :: 'e' :: rest => .ok (.boolean true, rest)
  | 'f' :: 'a' :: 'l' :: 's' :: 'e' :: rest => .ok (.boolean false, rest)
  | '"' :: rest => (string rest).map fun (content, after) => (.string content, after)
  | '[' :: _ => .ok (.sequence, s)
  | '{' :: _ => .ok (.object, s)
  | _ =>
      if startsNumber s then (number s).map fun (n, rest) => (n.found, rest)
      else .error ⟨.malformed, s⟩

def refusal (expected : Expected) (s : Text) : Misread :=
  match found s with
  | .ok (found, rest) => ⟨.wrongKind found expected, rest⟩
  | .error misread => misread

-- Reads the members of an object after its opening brace, up to its closing one. `member` takes
-- what was read so far, a name and the text after the name, where the colon is still to come. Every
-- member takes a character, so the length of the text bounds their number.
def members {State : Type} (member : State → Text → Text → Except Misread (State × Text)) :
    Nat → Bool → State → Text → Except Misread (State × Text)
  | 0, _, _, s => .error ⟨.malformed, s⟩
  | rounds + 1, first, state, s =>
      let named (s : Text) : Except Misread (State × Text) :=
        match s with
        | '"' :: rest => do
            let (name, afterName) ← string rest
            let (next, afterMember) ← member state name afterName
            members member rounds false next afterMember
        | other => .error ⟨.malformed, other⟩
      match skipBlank s with
      | '}' :: rest => .ok (state, rest)
      | ',' :: rest => if first then .error ⟨.malformed, ',' :: rest⟩ else named (skipBlank rest)
      | other => if first then named other else .error ⟨.malformed, other⟩

end ArithTemplate.Json
