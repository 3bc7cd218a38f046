import ArithTemplate.Misfit
import ArithTemplate.Pattern.Basic

set_option autoImplicit false

/-!
Reading patterns. A percent sign starts the directive, two in a row stand for one. A directive is
flags, a width, a precision, a length modifier and a conversion letter, all but the last optional;
a flaw in an earlier part is found before one in a later part.
-/

namespace ArithTemplate.Pattern

inductive Field where
  | width
  | precision
deriving DecidableEq, Repr

inductive Flaw where
  | fieldAtRunTime (field : Field)
  | fieldBeyondWord (field : Field) (digits : Text)
  | fieldAboveLimit (field : Field) (value : Nat)
  | lengthModifier (letters : Text)
  | incomplete
  | unknownConversion (letter : Char)
  | secondDirective
  | noDirective
deriving DecidableEq, Repr

def fieldLimit : Nat := 512

def defaultPrecision : Nat := 6

-- Literal text up to the end or to a percent sign that stands alone: the text it stands for, the
-- bytes it takes, and the rest.
def literalRun : Text → Text × Nat × Text
  | [] => ([], 0, [])
  | '%' :: '%' :: rest =>
      let (text, size, after) := literalRun rest
      ('%' :: text, size + 2, after)
  | c :: rest =>
      if c = '%' then ([], 0, c :: rest)
      else
        let (text, size, after) := literalRun rest
        (c :: text, size + c.utf8Size, after)

def isFlag (c : Char) : Bool :=
  c == '-' || c == '+' || c == ' ' || c == '#' || c == '0'

def isLengthLetter (c : Char) : Bool :=
  c == 'h' || c == 'l' || c == 'L' || c == 'q' || c == 'j' || c == 'z' || c == 't'

def conversion? : Char → Option (Conversion × Bool)
  | 'f' => some (.fixed, false)
  | 'F' => some (.fixed, true)
  | 'e' => some (.scientific, false)
  | 'E' => some (.scientific, true)
  | 'g' => some (.general, false)
  | 'G' => some (.general, true)
  | _ => none

-- The parts of a directive as they are written after its percent sign. A width that is absent is
-- empty, a precision may be empty after its point, and the letter is absent at the end of a line.
structure Parts where
  flags : Text
  width : Text
  precision : Option Text
  modifier : Text
  letter : Option Char
deriving DecidableEq, Repr

def fieldSpan : Text → Text × Text
  | '*' :: rest => (['*'], rest)
  | s => Numeral.span s

def precisionSpan : Text → Option Text × Text
  | '.' :: rest =>
      let (raw, after) := fieldSpan rest
      (some raw, after)
  | s => (none, s)

def letterSpan : Text → Option Char × Text
  | [] => (none, [])
  | c :: rest => if c = '\n' then (none, c :: rest) else (some c, rest)

namespace Parts

def scan (s : Text) : Parts × Text :=
  let (width, afterWidth) := fieldSpan (s.dropWhile isFlag)
  let (precision, afterPrecision) := precisionSpan afterWidth
  let modifier := afterPrecision.takeWhile isLengthLetter
  let (letter, rest) := letterSpan (afterPrecision.dropWhile isLengthLetter)
  (⟨s.takeWhile isFlag, width, precision, modifier, letter⟩, rest)

-- Bytes from the percent sign to a part. All parts before the letter are ASCII.
def widthOffset (p : Parts) : Nat := 1 + p.flags.length

def precisionOffset (p : Parts) : Nat := p.widthOffset + p.width.length + 1

def modifierOffset (p : Parts) : Nat :=
  match p.precision with
  | some raw => p.precisionOffset + raw.length
  | none => p.widthOffset + p.width.length

def letterOffset (p : Parts) : Nat := p.modifierOffset + p.modifier.length

end Parts

-- A run of digits beyond a machine word is a flaw of its own.
def fieldValue (field : Field) (position : Nat) (raw : Text) : Except (Misfit Flaw) Nat :=
  if raw = ['*'] then .error ⟨.fieldAtRunTime field, position⟩
  else
    let value := Numeral.value raw
    if Numeral.wordLimit ≤ value then .error ⟨.fieldBeyondWord field raw, position⟩
    else if fieldLimit < value then .error ⟨.fieldAboveLimit field value, position⟩
    else .ok value

namespace Parts

def widthValue (p : Parts) (start : Nat) : Except (Misfit Flaw) Nat :=
  if p.width = [] then .ok 0 else fieldValue .width (start + p.widthOffset) p.width

def precisionValue (p : Parts) (start : Nat) : Except (Misfit Flaw) Nat :=
  match p.precision with
  | none => .ok defaultPrecision
  | some [] => .ok 0
  | some raw => fieldValue .precision (start + p.precisionOffset) raw

def directive (p : Parts) (start : Nat) : Except (Misfit Flaw) Directive := do
  let width ← p.widthValue start
  let precision ← p.precisionValue start
  if p.modifier = [] ∨ p.modifier = ['l'] ∨ p.modifier = ['L'] then
    match p.letter with
    | none => .error ⟨.incomplete, start + p.letterOffset⟩
    | some letter =>
        match conversion? letter with
        | none => .error ⟨.unknownConversion letter, start + p.letterOffset⟩
        | some (conversion, upper) =>
            return {
              leftAlign := p.flags.contains '-'
              plus := p.flags.contains '+'
              space := p.flags.contains ' '
              zeroPad := p.flags.contains '0'
              alternate := p.flags.contains '#'
              width, precision, conversion, upper }
  else .error ⟨.lengthModifier p.modifier, start + p.modifierOffset⟩

end Parts

def read (s : Text) : Except (Misfit Flaw) Pattern :=
  let (leading, start, rest) := literalRun s
  match rest with
  | [] => .error ⟨.noDirective, 0⟩
  | _ :: afterPercent =>
      let (parts, afterParts) := Parts.scan afterPercent
      match parts.directive start with
      | .error misfit => .error misfit
      | .ok directive =>
          let (trailing, size, surplus) := literalRun afterParts
          match surplus with
          | [] => .ok ⟨leading, directive, trailing⟩
          | _ :: _ => .error ⟨.secondDirective, start + parts.letterOffset + 1 + size⟩

def Field.name : Field → String
  | .width => "width"
  | .precision => "precision"

def Flaw.message : Flaw → String
  | .fieldAtRunTime field => "'*' " ++ field.name ++ " is not supported"
  | .fieldBeyondWord field digits =>
      "invalid " ++ field.name ++ " '" ++ String.ofList digits ++
        "': number too large to fit in target type"
  | .fieldAboveLimit field value =>
      field.name ++ " " ++ toString value ++ " exceeds max of " ++ toString fieldLimit
  | .lengthModifier letters => "unsupported length modifier '" ++ String.ofList letters ++ "'"
  | .incomplete => "incomplete conversion at end of format"
  | .unknownConversion letter =>
      "unsupported conversion '%" ++ letter.toString ++ "'; expected one of f, F, e, E, g, G"
  | .secondDirective => "format must contain exactly one conversion, found a second one"
  | .noDirective => "format has no conversion directive"

end ArithTemplate.Pattern
