import ArithTemplate.Command.Run
import ArithTemplate.Proofs.Wording

set_option autoImplicit false

namespace ArithTemplate.Command

-- What is said of each refusal, a fault of the system in its own words.
def UsageError.wording : UsageError → Text
  | .tooFewArguments => "not enough arguments".toList
  | .unknownCommand name => "unknown command '".toList ++ name.toList ++ "'".toList
  | .valueMissing option => option.toList ++ " requires a value".toList
  | .invalidCapacity raw => "invalid --capacity value '".toList ++ raw.toList ++ "'".toList
  | .variableWithoutValue raw =>
      "invalid --var '".toList ++ raw.toList ++ "'; expected NAME=VALUE".toList
  | .invalidValue name value =>
      "invalid value for variable '".toList ++ name ++ "': '".toList ++ value ++ "'".toList
  | .unknownOption option => "unknown option '".toList ++ option.toList ++ "'".toList
  | .noInput => "render requires at least one input file or '-'".toList
  | .noFormula => "eval requires an expression".toList
  | .surplusArgument argument => "unexpected argument '".toList ++ argument.toList ++ "'".toList

def ReadFault.wording : ReadFault → Text
  | .missing => "No such file or directory (os error 2)".toList
  | .notText => "stream did not contain valid UTF-8".toList
  | .other message => message.toList

def Failure.wording : Failure → Text
  | .usage e => e.wording
  | .settingsFile fault => "io error: ".toList ++ fault.wording
  | .file path fault =>
      "failed to read '".toList ++ path.toList ++ "': ".toList ++ fault.wording
  | .standardInput fault => "failed to read stdin: ".toList ++ fault.wording
  | .config e => e.wording
  | .formula misfit => misfit.wording Formula.Flaw.wording
  | .operand e => e.wording

theorem usage_worded (e : UsageError) : Worded e.message e.wording := by
  cases e with
  | tooFewArguments | noInput | noFormula => exact .literal _
  | valueMissing option => exact (Worded.literal option).append (.literal _)
  | invalidValue name value =>
      have front := ((Worded.literal "invalid value for variable '").append (.text name)).append
        (.literal "': '")
      exact (front.append (.text value)).append (.literal _)
  | unknownCommand word | invalidCapacity word | variableWithoutValue word | unknownOption word
  | surplusArgument word => exact ((Worded.literal _).append (.literal word)).append (.literal _)

theorem fault_worded (fault : ReadFault) : Worded fault.message fault.wording := by
  cases fault <;> exact .literal _

theorem failure_worded (failure : Failure) : Worded failure.message failure.wording := by
  cases failure with
  | usage e => exact usage_worded e
  | settingsFile fault => exact (Worded.literal _).append (fault_worded fault)
  | file path fault =>
      have front := ((Worded.literal "failed to read '").append (.literal path)).append (.literal "': ")
      exact front.append (fault_worded fault)
  | standardInput fault => exact (Worded.literal _).append (fault_worded fault)
  | config e => exact .config e
  | formula misfit => exact .misfit _ _ misfit (.formula misfit.flaw)
  | operand e => exact .operand e

theorem append_closes (before message : String) (last : Char)
    (closes : message.toList.getLast? = some last) :
    (before ++ message).toList.getLast? = some last := by
  rw [String.toList_append, List.getLast?_append, closes]
  rfl

theorem characters_close (text : Text) (last : Char) (closes : text.getLast? = some last) :
    (String.ofList text).toList.getLast? = some last := by
  rw [String.toList_ofList, closes]

-- What does not close with the bracket that the usage text closes with.
def Unbracketed (message : String) : Prop := ∃ last, message.toList.getLast? = some last ∧ last ≠ ']'

theorem unbracketed_append (before message : String) (plain : Unbracketed message) :
    Unbracketed (before ++ message) := by
  obtain ⟨last, closes, other⟩ := plain
  exact ⟨last, append_closes before message last closes, other⟩

theorem unbracketed_number (before : String) (n : Nat) : Unbracketed (before ++ toString n) := by
  apply unbracketed_append
  have digits : (toString n).toList = Numeral.ofNat n := Worded.number n
  have some_ : Numeral.ofNat n ≠ [] := Nat.toDigits_ne_nil
  have digit := Numeral.isDigit_of_mem_ofNat (List.getLast_mem some_)
  refine ⟨(Numeral.ofNat n).getLast some_, ?_, ?_⟩
  · rw [digits, List.getLast?_eq_some_getLast some_]
  · intro bracket
    rw [bracket] at digit
    cases digit

theorem unbracketed_misfit {Flaw : Type} (describe : Flaw → String) (misfit : Misfit Flaw)
    (plain : ∀ flaw, Unbracketed (describe flaw)) : Unbracketed (misfit.message describe) :=
  unbracketed_append _ _ (plain misfit.flaw)

theorem unbracketed_formula (flaw : Formula.Flaw) : Unbracketed flaw.message := by
  cases flaw with
  | nestedTooDeep => exact unbracketed_number _ _
  | tooLarge => exact unbracketed_number _ _
  | unclosed start => exact unbracketed_number _ _
  | operandMissing found =>
      cases found with
      | none => exact ⟨_, characters_close _ _ rfl, by decide⟩
      | some found => exact unbracketed_append _ _ ⟨_, characters_close _ _ rfl, by decide⟩
  | leftOver found => exact unbracketed_append _ _ ⟨_, characters_close _ _ rfl, by decide⟩

theorem unbracketed_pattern (flaw : Pattern.Flaw) : Unbracketed flaw.message := by
  cases flaw with
  | fieldAboveLimit field value => exact unbracketed_number _ _
  | incomplete | secondDirective | noDirective => exact ⟨_, characters_close _ _ rfl, by decide⟩
  | _ => exact unbracketed_append _ _ ⟨_, characters_close _ _ rfl, by decide⟩

theorem unbracketed_cause (cause : Cause) : Unbracketed cause.message := by
  cases cause with
  | formula misfit => exact unbracketed_misfit _ misfit unbracketed_formula
  | operand e => exact unbracketed_append _ _ ⟨_, characters_close _ _ rfl, by decide⟩
  | pattern misfit => exact unbracketed_misfit _ misfit unbracketed_pattern
  | unclosed position => exact unbracketed_number _ _
  | overflow capacity => exact unbracketed_number _ _

-- The line that warns of an issue of an input.
def warningLine (input : String) (issue : Issue) : Text :=
  "warning: ".toList ++ (input.toList ++ ":".toList ++ Numeral.ofNat issue.offset) ++ ": ".toList ++
    issue.cause.wording

theorem warning_line (input : String) (issue : Issue) :
    warning input issue = warningLine input issue ++ ['\n'] := by
  have place := ((Worded.literal input).append (.literal ":")).append (.number issue.offset)
  have opening := ((Worded.literal "warning: ").append place).append (.literal ": ")
  exact (opening.append (.cause issue.cause)).append (.text ['\n'])

-- Lines of warnings, each with a line feed behind it.
def warnings (noted : List (String × Issue)) : Text :=
  noted.flatMap fun note => warningLine note.1 note.2 ++ ['\n']

-- The issues of the renderings, each with the input it is about.
def noted (inputs : List String) (renderings : List Rendering) : List (String × Issue) :=
  (inputs.zip renderings).flatMap fun (input, r) => r.issues.map fun issue => (input, issue)

theorem warnings_noted (inputs : List String) (renderings : List Rendering) :
    warnings (noted inputs renderings) =
      (inputs.zip renderings).flatMap fun (input, r) => r.issues.flatMap (warning input) := by
  have lines (input : String) : warning input = fun issue => warningLine input issue ++ ['\n'] :=
    funext (warning_line input)
  simp only [warnings, noted, lines, List.flatMap_assoc, List.flatMap_map]

theorem warning_closes (input : String) (issue : Issue) :
    ∃ before last, warningLine input issue = before ++ [last] ∧ last ≠ ']' := by
  obtain ⟨last, closes, other⟩ := unbracketed_cause issue.cause
  obtain ⟨before, same⟩ := List.getLast?_eq_some_iff.1 closes
  have wording : issue.cause.wording = before ++ [last] := (Worded.cause issue.cause).symm.trans same
  obtain ⟨opening, shape⟩ : ∃ opening, warningLine input issue = opening ++ issue.cause.wording :=
    ⟨_, rfl⟩
  refine ⟨opening ++ before, last, ?_, other⟩
  rw [shape, wording, List.append_assoc]

theorem usage_closes : ∃ lines, usage = lines ++ [']'] :=
  List.getLast?_eq_some_iff.1 (append_closes _ _ ']' (characters_close _ _ rfl))

-- An input may be named like the usage text, but no warning closes as that text does.
theorem warnings_not_usage (noted : List (String × Issue)) : ¬ usage ++ ['\n'] <:+ warnings noted := by
  obtain ⟨lines, closes⟩ := usage_closes
  rintro ⟨before, same⟩
  rw [closes, ← List.append_assoc, ← List.append_assoc] at same
  rcases List.eq_nil_or_concat noted with nothing | ⟨earlier, ⟨input, issue⟩, rfl⟩
  · rw [nothing] at same
    simp [warnings] at same
  · obtain ⟨text, last, closed, other⟩ := warning_closes input issue
    rw [warnings, List.concat_eq_append, List.flatMap_append, List.flatMap_singleton, closed,
      ← List.append_assoc, ← List.append_assoc] at same
    have unclosed := List.append_cancel_right same
    exact other (List.append_singleton_inj.1 unclosed).2.symm

end ArithTemplate.Command
