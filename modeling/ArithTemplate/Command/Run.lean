import ArithTemplate.Command.Arguments
import ArithTemplate.Json.Bindings
import ArithTemplate.Json.Settings

set_option autoImplicit false

/-!
What the command line does with the texts it can read. A failure of any part leaves the standard
output empty.
-/

namespace ArithTemplate.Command

inductive ReadFault where
  | missing
  | notText
  | other (message : String)
deriving DecidableEq, Repr

def ReadFault.message : ReadFault → String
  | .missing => "No such file or directory (os error 2)"
  | .notText => "stream did not contain valid UTF-8"
  | .other message => message

structure Sources where
  file : String → Except ReadFault Text
  standardInput : Except ReadFault Text

inductive Failure where
  | usage (e : UsageError)
  | settingsFile (fault : ReadFault)
  | file (path : String) (fault : ReadFault)
  | standardInput (fault : ReadFault)
  | config (e : ConfigError)
  | formula (misfit : Misfit Formula.Flaw)
  | operand (e : TextOperand)
deriving DecidableEq, Repr

def Failure.message : Failure → String
  | .usage e => e.message
  | .settingsFile fault => "io error: " ++ fault.message
  | .file path fault => "failed to read '" ++ path ++ "': " ++ fault.message
  | .standardInput fault => "failed to read stdin: " ++ fault.message
  | .config e => e.message
  | .formula misfit => misfit.message Formula.Flaw.message
  | .operand e => e.message

structure Outcome where
  code : Nat
  output : Text
  errors : Text
deriving DecidableEq, Repr

def usage : Text :=
  ("usage:\n" ++
    "  calc-template render <file|->... [--capacity N] [--lenient] [--config options.json] " ++
    "[--var NAME=VALUE]... [--vars bindings.json]\n" ++
    "  calc-template eval <expression> [--lenient]").toList

def settings (sources : Sources) (request : RenderRequest) : Except Failure Settings := do
  let base ←
    match request.settingsFile with
    | none => .ok {}
    | some path => do
        let text ← (sources.file path).mapError .settingsFile
        (Settings.ofJson text).mapError .config
  return { capacity := request.capacity.getD base.capacity
           strictness := if request.lenient then .lenient else base.strictness }

def fileBindings (sources : Sources) : List String → Except Failure Bindings
  | [] => .ok []
  | path :: rest => do
      let text ← (sources.file path).mapError (.file path)
      let found ← (Bindings.ofJson text).mapError .config
      let more ← fileBindings sources rest
      return found ++ more

-- The texts of the inputs. The first `-` takes all of the standard input.
def inputTexts (sources : Sources) :
    List String → Except ReadFault Text → Except Failure (List Text)
  | [], _ => .ok []
  | input :: rest, standardInput => do
      if input = "-" then
        let text ← standardInput.mapError .standardInput
        let more ← inputTexts sources rest (.ok [])
        return text :: more
      else
        let text ← (sources.file input).mapError (.file input)
        let more ← inputTexts sources rest standardInput
        return text :: more

def warning (input : String) (issue : Issue) : Text :=
  let place := input ++ ":" ++ toString issue.offset
  ("warning: " ++ place ++ ": " ++ issue.cause.message ++ "\n").toList

-- With nothing bound a text is taken as it is.
def substituted (bindings : Bindings) (text : Text) : Text :=
  if bindings.isEmpty then text else bindings.replace text

def runRender (sources : Sources) (request : RenderRequest) : Except Failure Outcome := do
  let settings ← settings sources request
  let more ← fileBindings sources request.bindingFiles
  let bindings := request.bindings ++ more
  let texts ← inputTexts sources request.inputs sources.standardInput
  let rendered := texts.map fun text => render settings (substituted bindings text)
  let output := rendered.flatMap fun r => r.text ++ ['\n']
  let warnings :=
    (request.inputs.zip rendered).flatMap fun (input, r) => r.issues.flatMap (warning input)
  return ⟨0, output, warnings⟩

def runEval (request : EvalRequest) : Except Failure Outcome := do
  let reading ← (Formula.read request.strictness request.formula.toList).mapError .formula
  let value ← reading.formula.evaluate.mapError .operand
  return ⟨0, value.text ++ ['\n'], []⟩

def attempt (sources : Sources) (arguments : List String) : Except Failure Outcome := do
  match ← (request arguments).mapError .usage with
  | .render request => runRender sources request
  | .eval request => runEval request

def run (sources : Sources) (arguments : List String) : Outcome :=
  match attempt sources arguments with
  | .ok outcome => outcome
  | .error failure => ⟨1, [], failure.message.toList ++ '\n' :: usage ++ ['\n']⟩

end ArithTemplate.Command
