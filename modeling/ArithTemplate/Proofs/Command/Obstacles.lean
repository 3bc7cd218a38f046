import ArithTemplate.Proofs.Command.Arguments
import ArithTemplate.Proofs.Command.Warnings
import ArithTemplate.Proofs.Made
import ArithTemplate.Proofs.Results

set_option autoImplicit false

namespace ArithTemplate.Command

section Faults

variable (sources : Sources)

def fileFault {A : Type} (unread : ReadFault → Failure) (decode : Text → Except ConfigError A)
    (path : String) : Option Failure :=
  match sources.file path with
  | .error fault => some (unread fault)
  | .ok text => (refusal (decode text)).map Failure.config

def inputFault (standardInput : Except ReadFault Text) (name : String) : Option Failure :=
  if name = "-" then (refusal standardInput).map .standardInput
  else (refusal (sources.file name)).map (.file name)

-- What stands in the way, in the order of looking. Each place is looked at whatever the others hold.
def obstacles (arguments : List String) : List Failure :=
  match request arguments with
  | .error e => [.usage e]
  | .ok (.render r) =>
      (r.settingsFile.bind (fileFault sources .settingsFile Settings.ofJson)).toList ++
        (r.bindingFiles.filterMap (fun path => fileFault sources (.file path) Bindings.ofJson path) ++
          r.inputs.filterMap (inputFault sources sources.standardInput))
  | .ok (.eval r) => ((refusal (Formula.read r.strictness r.formula.toList)).map .formula).toList

theorem file_refusal {A B : Type} (unread : ReadFault → Failure) (decode : Text → Except ConfigError A)
    (path : String) (f : A → Except Failure B) (later : Option Failure)
    (behind : ∀ a, refusal (f a) = later) :
    refusal ((sources.file path).mapError unread >>= fun text =>
      (decode text).mapError Failure.config >>= f) = (fileFault sources unread decode path).or later := by
  rw [fileFault]
  cases sources.file path with
  | error fault => rfl
  | ok text => exact (refusal_bind _ f later fun a _ => behind a).trans (by rw [refusal_map_error])

theorem settings_refusal (r : RenderRequest) :
    refusal (settings sources r) = r.settingsFile.bind (fileFault sources .settingsFile Settings.ofJson) := by
  unfold settings
  cases r.settingsFile with
  | none => rfl
  | some path => exact (file_refusal sources _ _ path _ none fun _ => rfl).trans Option.or_none

theorem file_bindings_refusal (paths : List String) :
    refusal (fileBindings sources paths) =
      paths.findSome? fun path => fileFault sources (.file path) Bindings.ofJson path := by
  induction paths with
  | nil => rfl
  | cons path rest hypothesis =>
      rw [fileBindings, List.findSome?_cons, ← hypothesis,
        file_refusal sources _ _ path _ _ fun found => refusal_pure _ (found ++ ·)]
      cases fileFault sources (.file path) Bindings.ofJson path <;> rfl

theorem text_refusal (first : Except Failure Text) (later : Except Failure (List Text)) :
    refusal (first >>= fun text => later >>= fun more => pure (text :: more)) =
      (refusal first).or (refusal later) :=
  refusal_bind first _ (refusal later) fun text _ => refusal_pure later (text :: ·)

-- A standard input that was read once is found as good as any other.
theorem input_texts_refusal (names : List String) (standardInput : Except ReadFault Text) :
    refusal (inputTexts sources names standardInput) =
      names.findSome? (inputFault sources standardInput) := by
  induction names generalizing standardInput with
  | nil => rfl
  | cons name rest hypothesis =>
      rw [inputTexts, List.findSome?_cons, inputFault]
      by_cases dash : name = "-"
      · rw [if_pos dash, if_pos dash, text_refusal, refusal_map_error, hypothesis]
        cases standardInput <;> rfl
      · rw [if_neg dash, if_neg dash, text_refusal, refusal_map_error, hypothesis]
        cases sources.file name <;> rfl

theorem run_render_refusal (r : RenderRequest) :
    refusal (runRender sources r) =
      (r.settingsFile.bind (fileFault sources .settingsFile Settings.ofJson)).or
        ((r.bindingFiles.findSome? fun path => fileFault sources (.file path) Bindings.ofJson path).or
          (r.inputs.findSome? (inputFault sources sources.standardInput))) := by
  rw [← settings_refusal, ← file_bindings_refusal, ← input_texts_refusal, runRender]
  exact refusal_bind _ _ _ fun _ _ => refusal_bind _ _ _ fun _ _ => refusal_pure _ _

theorem run_eval_refusal (r : EvalRequest) :
    refusal (runEval r) = (refusal (Formula.read r.strictness r.formula.toList)).map .formula := by
  rw [runEval, refusal_bind _ _ none, refusal_map_error, Option.or_none]
  intro reading result
  obtain ⟨value, evaluated⟩ := Formula.read_evaluates _ _ _ (map_error_gives _ _ _ result)
  rw [evaluated]
  rfl

theorem attempt_refusal (arguments : List String) :
    refusal (attempt sources arguments) = (obstacles sources arguments).head? := by
  rw [attempt, obstacles]
  cases request arguments with
  | error e => rfl
  | ok given =>
      cases given with
      | render r =>
          rw [List.head?_append, List.head?_append, Option.head?_toList, List.head?_filterMap,
            List.head?_filterMap]
          exact run_render_refusal sources r
      | eval r =>
          rw [Option.head?_toList]
          exact run_eval_refusal r

-- Why a file gives nothing: it cannot be read, or what it holds is refused.
inductive FileFault {A : Type} (unread : ReadFault → Failure) (decode : Text → Except ConfigError A)
    (path : String) : Failure → Prop
  | unread (fault : ReadFault) (fails : sources.file path = .error fault) :
      FileFault unread decode path (unread fault)
  | refused (text : Text) (reads : sources.file path = .ok text) (e : ConfigError)
      (fails : decode text = .error e) : FileFault unread decode path (.config e)

theorem file_fault_iff {A : Type} (unread : ReadFault → Failure) (decode : Text → Except ConfigError A)
    (path : String) (failure : Failure) :
    fileFault sources unread decode path = some failure ↔
      FileFault sources unread decode path failure := by
  rw [fileFault]
  constructor
  · intro found
    cases reads : sources.file path with
    | error fault =>
        rw [reads] at found
        cases found
        exact .unread fault reads
    | ok text =>
        rw [reads] at found
        obtain ⟨e, fails, rfl⟩ := Option.map_eq_some_iff.1 found
        exact .refused text reads e ((refusal_some _ e).1 fails)
  · intro fault
    cases fault with
    | unread fault fails => rw [fails]
    | refused text reads e fails => simp [reads, fails, refusal]

inductive InputFault (name : String) : Failure → Prop
  | file (plain : name ≠ "-") (fault : ReadFault) (fails : sources.file name = .error fault) :
      InputFault name (.file name fault)
  | standardInput (dash : name = "-") (fault : ReadFault) (fails : sources.standardInput = .error fault) :
      InputFault name (.standardInput fault)

theorem input_fault_iff (name : String) (failure : Failure) :
    inputFault sources sources.standardInput name = some failure ↔ InputFault sources name failure := by
  rw [inputFault]
  constructor
  · intro found
    by_cases dash : name = "-"
    · rw [if_pos dash] at found
      obtain ⟨fault, fails, rfl⟩ := Option.map_eq_some_iff.1 found
      exact .standardInput dash fault ((refusal_some _ fault).1 fails)
    · rw [if_neg dash] at found
      obtain ⟨fault, fails, rfl⟩ := Option.map_eq_some_iff.1 found
      exact .file dash fault ((refusal_some _ fault).1 fails)
  · intro fault
    cases fault with
    | file plain fault fails =>
        rw [if_neg plain, fails]
        rfl
    | standardInput dash fault fails =>
        rw [if_pos dash, fails]
        rfl

end Faults

-- What can stand in the way of a command line, whatever else does.
inductive Obstacle (sources : Sources) (arguments : List String) : Failure → Prop
  | usage (e : UsageError) (refused : request arguments = .error e) :
      Obstacle sources arguments (.usage e)
  | settings (r : RenderRequest) (given : Understood arguments (.render r)) (path : String)
      (named : r.settingsFile = some path) (failure : Failure)
      (fault : FileFault sources .settingsFile Settings.ofJson path failure) :
      Obstacle sources arguments failure
  | bindings (r : RenderRequest) (given : Understood arguments (.render r)) (path : String)
      (named : path ∈ r.bindingFiles) (failure : Failure)
      (fault : FileFault sources (.file path) Bindings.ofJson path failure) :
      Obstacle sources arguments failure
  | input (r : RenderRequest) (given : Understood arguments (.render r)) (name : String)
      (named : name ∈ r.inputs) (failure : Failure) (fault : InputFault sources name failure) :
      Obstacle sources arguments failure
  | formula (r : EvalRequest) (given : Understood arguments (.eval r)) (misfit : Misfit Formula.Flaw)
      (fails : Formula.read r.strictness r.formula.toList = .error misfit) :
      Obstacle sources arguments (.formula misfit)

section Run

variable (sources : Sources) (arguments : List String)

theorem mem_obstacles_render (r : RenderRequest) (given : Understood arguments (.render r))
    (failure : Failure) :
    failure ∈ obstacles sources arguments ↔
      (∃ path, r.settingsFile = some path ∧
        FileFault sources .settingsFile Settings.ofJson path failure) ∨
      (∃ path ∈ r.bindingFiles, FileFault sources (.file path) Bindings.ofJson path failure) ∨
      ∃ name ∈ r.inputs, InputFault sources name failure := by
  rw [obstacles, (request_iff arguments _).2 given]
  simp [Option.bind_eq_some_iff, file_fault_iff, input_fault_iff]

theorem mem_obstacles_eval (r : EvalRequest) (given : Understood arguments (.eval r))
    (failure : Failure) :
    failure ∈ obstacles sources arguments ↔ ∃ misfit,
      Formula.read r.strictness r.formula.toList = .error misfit ∧ .formula misfit = failure := by
  rw [obstacles, (request_iff arguments _).2 given]
  simp [refusal_some]

theorem mem_obstacles (failure : Failure) :
    failure ∈ obstacles sources arguments ↔ Obstacle sources arguments failure := by
  constructor
  · intro found
    cases read : request arguments with
    | error e =>
        rw [obstacles, read] at found
        cases List.mem_singleton.1 found
        exact .usage e read
    | ok given =>
        have understood := (request_iff arguments given).1 read
        cases given with
        | render r =>
            rcases (mem_obstacles_render sources arguments r understood failure).1 found with
              ⟨path, named, fault⟩ | ⟨path, named, fault⟩ | ⟨name, named, fault⟩
            · exact .settings r understood path named failure fault
            · exact .bindings r understood path named failure fault
            · exact .input r understood name named failure fault
        | eval r =>
            obtain ⟨misfit, fails, rfl⟩ :=
              (mem_obstacles_eval sources arguments r understood failure).1 found
            exact .formula r understood misfit fails
  · intro obstacle
    cases obstacle with
    | usage e refused =>
        rw [obstacles, refused]
        exact List.mem_singleton_self _
    | settings r given path named _ fault =>
        exact (mem_obstacles_render sources arguments r given failure).2 (.inl ⟨path, named, fault⟩)
    | bindings r given path named _ fault =>
        exact (mem_obstacles_render sources arguments r given failure).2
          (.inr (.inl ⟨path, named, fault⟩))
    | input r given name named _ fault =>
        exact (mem_obstacles_render sources arguments r given failure).2
          (.inr (.inr ⟨name, named, fault⟩))
    | formula r given misfit fails =>
        exact (mem_obstacles_eval sources arguments r given _).2 ⟨misfit, fails, rfl⟩

theorem attempt_warns (outcome : Outcome) (runs : attempt sources arguments = .ok outcome) :
    outcome.code = 0 ∧ ∃ noted, outcome.errors = warnings noted := by
  obtain ⟨given, _, runs⟩ := bind_gives _ _ _ runs
  cases given with
  | render r =>
      obtain ⟨configured, _, runs⟩ := bind_gives _ _ _ runs
      obtain ⟨found, _, runs⟩ := bind_gives _ _ _ runs
      obtain ⟨texts, _, runs⟩ := bind_gives _ _ _ runs
      cases runs
      exact ⟨rfl, _, (warnings_noted r.inputs _).symm⟩
  | eval r =>
      obtain ⟨reading, _, runs⟩ := bind_gives _ _ _ runs
      obtain ⟨value, _, runs⟩ := bind_gives _ _ _ runs
      cases runs
      exact ⟨rfl, [], rfl⟩

theorem run_clear (clear : obstacles sources arguments = []) :
    (run sources arguments).code = 0 ∧ ∃ noted, (run sources arguments).errors = warnings noted := by
  have refused := attempt_refusal sources arguments
  rw [clear] at refused
  rw [run]
  cases attempted : attempt sources arguments with
  | error failure =>
      rw [attempted] at refused
      cases refused
  | ok outcome => exact attempt_warns sources arguments outcome attempted

theorem run_obstructed (first : Failure) (later : List Failure)
    (found : obstacles sources arguments = first :: later) :
    run sources arguments = ⟨1, [], first.wording ++ '\n' :: usage ++ ['\n']⟩ := by
  have refused := attempt_refusal sources arguments
  have said : first.message.toList = first.wording := failure_worded first
  rw [found] at refused
  rw [run, (refusal_some _ first).1 refused, ← said]

theorem misunderstood_is_obstacle (misunderstood : ∀ given, ¬ Understood arguments given) :
    ∃ e, Obstacle sources arguments (.usage e) := by
  cases read : request arguments with
  | error e => exact ⟨e, .usage e read⟩
  | ok given => exact absurd ((request_iff arguments given).1 read) (misunderstood given)

-- Anything in the way, wherever it is, leaves the standard output empty and the first thing in the way
-- alone is reported, with the usage text. Otherwise there are only warnings.
theorem run_whole_or_refused :
    ((run sources arguments).code = 0 ∨ (run sources arguments).code = 1) ∧
      ((run sources arguments).code = 1 → (run sources arguments).output = [] ∧
        ∃ first later, obstacles sources arguments = first :: later ∧
          (run sources arguments).errors = first.wording ++ '\n' :: usage ++ ['\n']) ∧
      ((run sources arguments).code = 0 → ¬ usage ++ ['\n'] <:+ (run sources arguments).errors ∧
        ∃ noted, (run sources arguments).errors = warnings noted) ∧
      (∀ failure, failure ∈ obstacles sources arguments ↔ Obstacle sources arguments failure) ∧
      (∀ failure, Obstacle sources arguments failure → (run sources arguments).code = 1) ∧
      ((∀ given, ¬ Understood arguments given) → (run sources arguments).code = 1) := by
  have stops (failure : Failure) (obstacle : Obstacle sources arguments failure) :
      (run sources arguments).code = 1 := by
    have found := (mem_obstacles sources arguments failure).2 obstacle
    obtain ⟨first, later, obstructed⟩ := List.exists_cons_of_ne_nil (List.ne_nil_of_mem found)
    rw [run_obstructed sources arguments first later obstructed]
  have misunderstands (misunderstood : ∀ given, ¬ Understood arguments given) :
      (run sources arguments).code = 1 := by
    obtain ⟨e, obstacle⟩ := misunderstood_is_obstacle sources arguments misunderstood
    exact stops (.usage e) obstacle
  cases found : obstacles sources arguments with
  | nil =>
      obtain ⟨succeeds, noted, warns⟩ := run_clear sources arguments found
      refine ⟨.inl succeeds, fun fails => ?_, fun _ => ⟨?_, noted, warns⟩,
        found ▸ mem_obstacles sources arguments, stops, misunderstands⟩
      · cases succeeds.symm.trans fails
      · rw [warns]
        exact warnings_not_usage noted
  | cons first later =>
      have refused := run_obstructed sources arguments first later found
      refine ⟨.inr (by rw [refused]), fun _ => ?_, fun succeeds => ?_,
        found ▸ mem_obstacles sources arguments, stops, misunderstands⟩
      · rw [refused]
        exact ⟨rfl, first, later, rfl, rfl⟩
      · rw [refused] at succeeds
        cases succeeds

end Run

-- The input that can be read is not printed before the one that cannot.
example : run ⟨fun path => if path = "a" then .ok ['x'] else .error .missing, .ok []⟩
    ["render", "a", "b", "c"] =
      ⟨1, [], (Failure.file "b" .missing).wording ++ '\n' :: usage ++ ['\n']⟩ :=
  run_obstructed _ _ (.file "b" .missing) [.file "c" .missing] (by decide)

end ArithTemplate.Command
