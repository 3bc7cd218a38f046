import ArithTemplate.Decimal.Literal
import ArithTemplate.Formula.Reading
import ArithTemplate.Substitution
import ArithTemplate.Text.Blank

set_option autoImplicit false

/-!
The arguments of the command line. Options and inputs may come in any order; of an option given
twice, the last capacity and settings file count, and variables add up.
-/

namespace ArithTemplate.Command

inductive UsageError where
  | tooFewArguments
  | unknownCommand (name : String)
  | valueMissing (option : String)
  | invalidCapacity (raw : String)
  | variableWithoutValue (raw : String)
  | invalidValue (name value : Text)
  | unknownOption (option : String)
  | noInput
  | noFormula
  | surplusArgument (argument : String)
deriving DecidableEq, Repr

def UsageError.message : UsageError → String
  | .tooFewArguments => "not enough arguments"
  | .unknownCommand name => "unknown command '" ++ name ++ "'"
  | .valueMissing option => option ++ " requires a value"
  | .invalidCapacity raw => "invalid --capacity value '" ++ raw ++ "'"
  | .variableWithoutValue raw => "invalid --var '" ++ raw ++ "'; expected NAME=VALUE"
  | .invalidValue name value =>
      "invalid value for variable '" ++ String.ofList name ++ "': '" ++ String.ofList value ++ "'"
  | .unknownOption option => "unknown option '" ++ option ++ "'"
  | .noInput => "render requires at least one input file or '-'"
  | .noFormula => "eval requires an expression"
  | .surplusArgument argument => "unexpected argument '" ++ argument ++ "'"

structure RenderRequest where
  inputs : List String
  capacity : Option Nat
  lenient : Bool
  settingsFile : Option String
  bindings : Bindings
  bindingFiles : List String
deriving DecidableEq, Repr

structure EvalRequest where
  formula : String
  strictness : Strictness
deriving DecidableEq, Repr

inductive Request where
  | render (request : RenderRequest)
  | eval (request : EvalRequest)
deriving DecidableEq, Repr

def capacity? (raw : Text) : Option Nat :=
  let digits :=
    match raw with
    | '+' :: rest => rest
    | _ => raw
  if digits ≠ [] ∧ digits.all Char.isDigit ∧ Numeral.value digits < Numeral.wordLimit then
    some (Numeral.value digits)
  else none

def value? (s : Text) : Option Binary64 :=
  match Literal.ofText? s with
  | some literal => some literal.value
  | none =>
      let (negative, word) := Literal.sign s
      let word := word.map Char.toLower
      if word = ['i', 'n', 'f'] ∨ word = ['i', 'n', 'f', 'i', 'n', 'i', 't', 'y'] then
        some (.infinite negative)
      else if word = ['n', 'a', 'n'] then some .nan
      else none

def binding (raw : String) : Except UsageError (Text × Binary64) :=
  match Text.cut '=' raw.toList with
  | none => .error (.variableWithoutValue raw)
  | some (name, value) =>
      match value? (Text.trim value) with
      | some x => .ok (Text.trim name, x)
      | none => .error (.invalidValue name value)

def renderArguments : List String → RenderRequest → Except UsageError RenderRequest
  | [], request => if request.inputs = [] then .error .noInput else .ok request
  | ["--capacity"], _ => .error (.valueMissing "--capacity")
  | "--capacity" :: raw :: rest, request =>
      match capacity? raw.toList with
      | some n => renderArguments rest { request with capacity := some n }
      | none => .error (.invalidCapacity raw)
  | "--lenient" :: rest, request => renderArguments rest { request with lenient := true }
  | ["--config"], _ => .error (.valueMissing "--config")
  | "--config" :: path :: rest, request =>
      renderArguments rest { request with settingsFile := some path }
  | ["--var"], _ => .error (.valueMissing "--var")
  | "--var" :: raw :: rest, request =>
      match binding raw with
      | .ok found => renderArguments rest { request with bindings := request.bindings ++ [found] }
      | .error e => .error e
  | ["--vars"], _ => .error (.valueMissing "--vars")
  | "--vars" :: path :: rest, request =>
      renderArguments rest { request with bindingFiles := request.bindingFiles ++ [path] }
  | other :: rest, request =>
      if ['-', '-'].isPrefixOf other.toList then .error (.unknownOption other)
      else renderArguments rest { request with inputs := request.inputs ++ [other] }

def evalArguments : List String → Option String → Strictness → Except UsageError EvalRequest
  | [], some formula, strictness => .ok ⟨formula, strictness⟩
  | [], none, _ => .error .noFormula
  | "--lenient" :: rest, formula, _ => evalArguments rest formula .lenient
  | other :: rest, none, strictness => evalArguments rest (some other) strictness
  | other :: _, some _, _ => .error (.surplusArgument other)

def request : List String → Except UsageError Request
  | "render" :: first :: rest =>
      (renderArguments (first :: rest) ⟨[], none, false, none, [], []⟩).map .render
  | "eval" :: first :: rest => (evalArguments (first :: rest) none .strict).map .eval
  | name :: _ :: _ => .error (.unknownCommand name)
  | _ => .error .tooFewArguments

end ArithTemplate.Command
