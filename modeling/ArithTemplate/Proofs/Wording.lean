import ArithTemplate.ConfigError
import ArithTemplate.Proofs.Numeral
import ArithTemplate.Rendering.Event

set_option autoImplicit false

namespace ArithTemplate

-- What is said of each fault. A place, a count or a limit is written in decimal.
def Formula.Flaw.wording : Formula.Flaw → Text
  | .nestedTooDeep => "expression nesting exceeds max depth of ".toList ++ Numeral.ofNat 128
  | .tooLarge => "expression exceeds max node count of ".toList ++ Numeral.ofNat 4096
  | .unclosed start => "expected ')' to close '(' at ".toList ++ Numeral.ofNat start
  | .operandMissing none => "expected number or '(' but reached end of expression".toList
  | .operandMissing (some found) =>
      "expected number or '(' but found '".toList ++ [found] ++ "'".toList
  | .leftOver found => "unexpected '".toList ++ [found] ++ "' after expression".toList

def Pattern.Field.word : Pattern.Field → Text
  | .width => "width".toList
  | .precision => "precision".toList

def Pattern.Flaw.wording : Pattern.Flaw → Text
  | .fieldAtRunTime field => "'*' ".toList ++ field.word ++ " is not supported".toList
  | .fieldBeyondWord field digits =>
      "invalid ".toList ++ field.word ++ " '".toList ++ digits ++
        "': number too large to fit in target type".toList
  | .fieldAboveLimit field value =>
      field.word ++ " ".toList ++ Numeral.ofNat value ++ " exceeds max of ".toList ++ Numeral.ofNat 512
  | .lengthModifier letters => "unsupported length modifier '".toList ++ letters ++ "'".toList
  | .incomplete => "incomplete conversion at end of format".toList
  | .unknownConversion letter =>
      "unsupported conversion '%".toList ++ [letter] ++ "'; expected one of f, F, e, E, g, G".toList
  | .secondDirective => "format must contain exactly one conversion, found a second one".toList
  | .noDirective => "format has no conversion directive".toList

def Misfit.wording {Flaw : Type} (describe : Flaw → Text) (misfit : Misfit Flaw) : Text :=
  "syntax error at ".toList ++ Numeral.ofNat misfit.position ++ ": ".toList ++ describe misfit.flaw

def TextOperand.wording (e : TextOperand) : Text :=
  "malformed tree: text node ".toList ++ e.content.quoted ++ " has no numeric value".toList

def Cause.wording : Cause → Text
  | .formula misfit => misfit.wording Formula.Flaw.wording
  | .operand e => e.wording
  | .pattern misfit => misfit.wording Pattern.Flaw.wording
  | .unclosed position => "unterminated placeholder starting at ".toList ++ Numeral.ofNat position
  | .overflow capacity => "output truncated at capacity ".toList ++ Numeral.ofNat capacity

def Event.wording : Event → Text
  | .evaluated formula value => formula.print ++ [' ', '=', ' '] ++ value.text
  | .released count => "released ".toList ++ Numeral.ofNat count ++ " expression nodes".toList
  | .skipped issue =>
      "skipping placeholder at ".toList ++ Numeral.ofNat issue.offset ++ ": ".toList ++
        issue.cause.wording
  | .unclosed position => "unterminated placeholder at ".toList ++ Numeral.ofNat position
  | .overflow capacity =>
      "template output truncated at ".toList ++ Numeral.ofNat capacity ++ " bytes".toList
  | .variableOverflow capacity =>
      "variable output truncated at ".toList ++ Numeral.ofNat capacity ++ " bytes".toList

-- What the JSON reader says of a flaw is taken as it is.
def ConfigError.wording : ConfigError → Text
  | .settings flaw place =>
      "config error: invalid template options: ".toList ++ flaw.message.toList ++ place.message.toList
  | .bindings flaw place =>
      "config error: invalid variable bindings: ".toList ++ flaw.message.toList ++ place.message.toList
  | .variableName name =>
      "config error: invalid variable name '".toList ++ name ++
        "'; expected ASCII letters and digits".toList

-- A message is this text.
def Worded (message : String) (text : Text) : Prop := message.toList = text

namespace Worded

theorem append {a b : String} {s t : Text} (left : Worded a s) (right : Worded b t) :
    Worded (a ++ b) (s ++ t) := by
  rw [Worded, String.toList_append, left, right]

theorem literal (a : String) : Worded a a.toList := rfl

theorem number (n : Nat) : Worded (toString n) (Numeral.ofNat n) := String.toList_ofList

theorem character (c : Char) : Worded c.toString [c] := String.toList_singleton c

theorem text (s : Text) : Worded (String.ofList s) s := String.toList_ofList

theorem formula (flaw : Formula.Flaw) : Worded flaw.message flaw.wording := by
  cases flaw with
  | nestedTooDeep => exact (literal _).append (number 128)
  | tooLarge => exact (literal _).append (number 4096)
  | unclosed start => exact (literal _).append (number start)
  | operandMissing found =>
      cases found with
      | none => exact literal _
      | some found => exact ((literal _).append (character found)).append (literal _)
  | leftOver found => exact ((literal _).append (character found)).append (literal _)

theorem field (f : Pattern.Field) : Worded f.name f.word := by
  cases f <;> exact literal _

theorem pattern (flaw : Pattern.Flaw) : Worded flaw.message flaw.wording := by
  cases flaw with
  | fieldAtRunTime f => exact ((literal _).append (field f)).append (literal _)
  | fieldBeyondWord f digits =>
      have front := ((literal "invalid ").append (field f)).append (literal " '")
      exact (front.append (text digits)).append (literal _)
  | fieldAboveLimit f value =>
      have front := ((field f).append (literal " ")).append (number value)
      exact (front.append (literal _)).append (number 512)
  | lengthModifier letters => exact ((literal _).append (text letters)).append (literal _)
  | incomplete | secondDirective | noDirective => exact literal _
  | unknownConversion letter => exact ((literal _).append (character letter)).append (literal _)

theorem misfit {Flaw : Type} (describe : Flaw → String) (wording : Flaw → Text) (m : Misfit Flaw)
    (described : Worded (describe m.flaw) (wording m.flaw)) :
    Worded (m.message describe) (m.wording wording) :=
  (((literal _).append (number m.position)).append (literal _)).append described

theorem operand (e : TextOperand) : Worded e.message e.wording :=
  ((literal _).append (text _)).append (literal _)

theorem cause (c : Cause) : Worded c.message c.wording := by
  cases c with
  | formula m => exact misfit _ _ m (formula m.flaw)
  | operand e => exact operand e
  | pattern m => exact misfit _ _ m (pattern m.flaw)
  | unclosed position => exact (literal _).append (number position)
  | overflow capacity => exact (literal _).append (number capacity)

theorem event (e : Event) : Worded e.message e.wording := by
  cases e with
  | evaluated formula value => exact text _
  | released count => exact ((literal _).append (number count)).append (literal _)
  | skipped issue =>
      have place := (literal "skipping placeholder at ").append (number issue.offset)
      exact (place.append (literal ": ")).append (cause issue.cause)
  | unclosed position => exact (literal _).append (number position)
  | overflow capacity => exact ((literal _).append (number capacity)).append (literal _)
  | variableOverflow capacity => exact ((literal _).append (number capacity)).append (literal _)

theorem config (e : ConfigError) : Worded e.message e.wording := by
  cases e with
  | settings flaw place => exact ((literal _).append (literal _)).append (literal _)
  | bindings flaw place => exact ((literal _).append (literal _)).append (literal _)
  | variableName name => exact ((literal _).append (text name)).append (literal _)

end Worded
end ArithTemplate
