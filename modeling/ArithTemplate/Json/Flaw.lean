import ArithTemplate.Binary64.Decimal
import ArithTemplate.Text.Quoted

set_option autoImplicit false

/-!
Why a JSON text is refused. The first flaw from left to right counts.
-/

namespace ArithTemplate.Json

inductive Found where
  | null
  | boolean (value : Bool)
  | integer (value : Int)
  | float (value : Binary64)
  | string (content : Text)
  | sequence
  | object
deriving DecidableEq, Repr

inductive Expected where
  | settings
  | bindings
  | capacity
  | variant
  | null
  | number
deriving DecidableEq, Repr

inductive Field where
  | capacity
  | mode
deriving DecidableEq, Repr

inductive Flaw where
  | malformed
  | outOfRange
  | unknownField (name : Text)
  | repeatedField (field : Field)
  | unknownVariant (name : Text)
  | wrongKind (found : Found) (expected : Expected)
  | negativeCapacity (value : Int)
deriving DecidableEq, Repr

-- Shortest digits, a half going to the even digit, with a point and a digit after it in positional
-- notation, which serves for powers of ten from -5 to 15; beyond them an exponent with its sign.
def floatText : Binary64 → Text
  | .nan => Binary64.text .nan
  | .infinite negative => Binary64.text (.infinite negative)
  | .finite negative code =>
      let d := Binary64.shortest .even code
      let places := (Numeral.ofNat d.coefficient).length - 1
      let power := d.exponent + places
      let magnitude :=
        if -5 ≤ power ∧ power ≤ 15 then
          if d.exponent < 0 then d.plain else d.plain ++ ['.', '0']
        else
          Decimal.fixed places d.coefficient ++
            'e' :: (if power < 0 then '-' else '+') :: Numeral.ofNat power.natAbs
      if negative then '-' :: magnitude else magnitude

def Found.describe : Found → String
  | .null => "null"
  | .boolean true => "boolean `true`"
  | .boolean false => "boolean `false`"
  | .integer value => "integer `" ++ toString value ++ "`"
  | .float value => "floating point `" ++ String.ofList (floatText value) ++ "`"
  | .string content => "string " ++ String.ofList content.quoted
  | .sequence => "sequence"
  | .object => "map"

def Expected.describe : Expected → String
  | .settings => "struct TemplateOptions"
  | .bindings => "a map"
  | .capacity => "usize"
  | .variant => "variant identifier"
  | .null => "unit"
  | .number => "f64"

def Field.name : Field → String
  | .capacity => "capacity"
  | .mode => "mode"

def Flaw.message : Flaw → String
  | .malformed => "malformed JSON"
  | .outOfRange => "number out of range"
  | .unknownField name =>
      "unknown field `" ++ String.ofList name ++ "`, expected `capacity` or `mode`"
  | .repeatedField field => "duplicate field `" ++ field.name ++ "`"
  | .unknownVariant name =>
      "unknown variant `" ++ String.ofList name ++ "`, expected `strict` or `lenient`"
  | .wrongKind found expected =>
      "invalid type: " ++ found.describe ++ ", expected " ++ expected.describe
  | .negativeCapacity value => "invalid value: integer `" ++ toString value ++ "`, expected usize"

end ArithTemplate.Json
