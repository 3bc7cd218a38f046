import ArithTemplate.Command.Arguments
import ArithTemplate.Proofs.Results

set_option autoImplicit false

namespace ArithTemplate.Command

inductive Argument where
  | capacity (value : Nat)
  | lenient
  | settingsFile (path : String)
  | binding (found : Text × Binary64)
  | bindingFile (path : String)
  | input (name : String)
deriving DecidableEq, Repr

-- What an option stands for with the word behind it, if it takes one.
def valued (option raw : String) : Option Argument :=
  match option with
  | "--capacity" => (capacity? raw.toList).map .capacity
  | "--config" => some (.settingsFile raw)
  | "--var" => (binding raw).toOption.map .binding
  | "--vars" => some (.bindingFile raw)
  | _ => none

-- What words stand for. The word behind an option is its value whatever it looks like.
inductive Spells : List String → List Argument → Prop
  | nothing : Spells [] []
  | lenient (words : List String) (later : List Argument) (behind : Spells words later) :
      Spells ("--lenient" :: words) (.lenient :: later)
  | valued (option raw : String) (item : Argument) (words : List String) (later : List Argument)
      (reads : valued option raw = some item) (behind : Spells words later) :
      Spells (option :: raw :: words) (item :: later)
  | input (name : String) (words : List String) (later : List Argument)
      (plain : ¬ ['-', '-'] <+: name.toList) (behind : Spells words later) :
      Spells (name :: words) (.input name :: later)

theorem valued_dashed (option raw : String) (item : Argument)
    (reads : valued option raw = some item) : ['-', '-'] <+: option.toList := by
  unfold valued at reads
  split at reads
  · decide
  · decide
  · decide
  · decide
  · cases reads

theorem spelled_unique (words : List String) (items other : List Argument) (spelled : Spells words items)
    (spelledToo : Spells words other) : other = items := by
  induction spelled generalizing other with
  | nothing =>
      cases spelledToo
      rfl
  | lenient words later behind hypothesis =>
      cases spelledToo with
      | lenient _ later' behind' => rw [hypothesis later' behind']
      | valued _ _ _ _ _ reads => cases reads
      | input _ _ _ plain => exact absurd (by decide) plain
  | valued option raw item words later reads behind hypothesis =>
      cases spelledToo with
      | lenient => cases reads
      | valued _ _ item' _ later' reads' behind' =>
          cases reads.symm.trans reads'
          rw [hypothesis later' behind']
      | input _ _ _ plain => exact absurd (valued_dashed option raw item reads) plain
  | input name words later plain behind hypothesis =>
      cases spelledToo with
      | lenient => exact absurd (by decide) plain
      | valued _ raw item _ _ reads => exact absurd (valued_dashed name raw item reads) plain
      | input _ _ later' _ behind' => rw [hypothesis later' behind']

section Kinds

variable (items : List Argument)

def capacities : List Nat := items.filterMap fun | .capacity value => some value | _ => none

def settingsFiles : List String := items.filterMap fun | .settingsFile path => some path | _ => none

def givenBindings : Bindings := items.filterMap fun | .binding found => some found | _ => none

def bindingFiles : List String := items.filterMap fun | .bindingFile path => some path | _ => none

def inputs : List String := items.filterMap fun | .input name => some name | _ => none

-- Of a capacity or settings file given twice the last counts.
def requested : RenderRequest :=
  ⟨inputs items, (capacities items).getLast?, decide (.lenient ∈ items), (settingsFiles items).getLast?,
    givenBindings items, bindingFiles items⟩

end Kinds

def RenderRequest.take (request : RenderRequest) : Argument → RenderRequest
  | .capacity value => { request with capacity := some value }
  | .lenient => { request with lenient := true }
  | .settingsFile path => { request with settingsFile := some path }
  | .binding found => { request with bindings := request.bindings ++ [found] }
  | .bindingFile path => { request with bindingFiles := request.bindingFiles ++ [path] }
  | .input name => { request with inputs := request.inputs ++ [name] }

theorem requested_take (items : List Argument) (item : Argument) :
    (requested items).take item = requested (items ++ [item]) := by
  cases item <;>
    simp [requested, RenderRequest.take, capacities, settingsFiles, givenBindings, bindingFiles, inputs]

theorem take_valued (option raw : String) (item : Argument) (reads : valued option raw = some item)
    (words : List String) (request : RenderRequest) :
    renderArguments (option :: raw :: words) request = renderArguments words (request.take item) := by
  unfold valued at reads
  split at reads
  · obtain ⟨value, given, rfl⟩ := Option.map_eq_some_iff.1 reads
    rw [renderArguments, given]
    rfl
  · cases reads
    rw [renderArguments]
    rfl
  · cases given : binding raw with
    | error e => simp [given, Except.toOption] at reads
    | ok found =>
        rw [given] at reads
        cases reads
        rw [renderArguments, given]
        rfl
  · cases reads
    rw [renderArguments]
    rfl
  · cases reads

theorem take_input (name : String) (plain : ¬ ['-', '-'] <+: name.toList) (words : List String)
    (request : RenderRequest) :
    renderArguments (name :: words) request = renderArguments words (request.take (.input name)) := by
  have other (option : String) (dashed : ['-', '-'] <+: option.toList) : name ≠ option := by
    rintro rfl
    exact plain dashed
  have capacity := other "--capacity" (by decide)
  have lenient := other "--lenient" (by decide)
  have settingsFile := other "--config" (by decide)
  have found := other "--var" (by decide)
  have bindingFile := other "--vars" (by decide)
  have undashed : ¬ ['-', '-'].isPrefixOf name.toList = true := plain ∘ List.isPrefixOf_iff_prefix.1
  rw [renderArguments, if_neg undashed]
  · rfl
  all_goals simp [capacity, lenient, settingsFile, found, bindingFile]

-- Reading starts where the items before have led.
theorem arguments_spelled (words : List String) (before items : List Argument) (spelled : Spells words items) :
    renderArguments words (requested before) =
      if inputs (before ++ items) = [] then .error .noInput else .ok (requested (before ++ items)) := by
  induction spelled generalizing before with
  | nothing =>
      rw [List.append_nil]
      rfl
  | lenient words later behind hypothesis =>
      have step := hypothesis (before ++ [.lenient])
      rw [← requested_take, List.append_assoc] at step
      exact step
  | valued option raw item words later reads behind hypothesis =>
      have step := hypothesis (before ++ [item])
      rw [← requested_take, List.append_assoc] at step
      exact (take_valued option raw item reads words _).trans step
  | input name words later plain behind hypothesis =>
      have step := hypothesis (before ++ [.input name])
      rw [← requested_take, List.append_assoc] at step
      exact (take_input name plain words _).trans step

theorem arguments_spell (words : List String) (request given : RenderRequest)
    (reads : renderArguments words request = .ok given) : ∃ items, Spells words items := by
  induction words, request using renderArguments.induct with
  | case1 | case2 => exact ⟨[], .nothing⟩
  | case3 | case7 | case9 | case12 => cases reads
  | case4 raw rest request value given hypothesis =>
      rw [renderArguments, given] at reads
      obtain ⟨items, spelled⟩ := hypothesis reads
      exact ⟨_, .valued "--capacity" raw (.capacity value) rest items (by rw [valued, given]; rfl) spelled⟩
  | case5 raw rest request refused =>
      rw [renderArguments, refused] at reads
      cases reads
  | case6 rest request hypothesis =>
      rw [renderArguments] at reads
      obtain ⟨items, spelled⟩ := hypothesis reads
      exact ⟨_, .lenient rest items spelled⟩
  | case8 path rest request hypothesis =>
      rw [renderArguments] at reads
      obtain ⟨items, spelled⟩ := hypothesis reads
      exact ⟨_, .valued "--config" path (.settingsFile path) rest items rfl spelled⟩
  | case10 raw rest request found given hypothesis =>
      rw [renderArguments, given] at reads
      obtain ⟨items, spelled⟩ := hypothesis reads
      exact ⟨_, .valued "--var" raw (.binding found) rest items (by rw [valued, given]; rfl) spelled⟩
  | case11 raw rest request e refused =>
      rw [renderArguments, refused] at reads
      cases reads
  | case13 path rest request hypothesis =>
      rw [renderArguments] at reads
      obtain ⟨items, spelled⟩ := hypothesis reads
      exact ⟨_, .valued "--vars" path (.bindingFile path) rest items rfl spelled⟩
  | case14 name rest request _ _ _ _ _ _ _ _ _ dashed =>
      rw [renderArguments, if_pos dashed] at reads
      · cases reads
      all_goals assumption
  | case15 name rest request _ _ _ _ _ _ _ _ _ undashed hypothesis =>
      have plain : ¬ ['-', '-'] <+: name.toList := undashed ∘ List.isPrefixOf_iff_prefix.2
      rw [take_input name plain] at reads
      obtain ⟨items, spelled⟩ := hypothesis reads
      exact ⟨_, .input name rest items plain spelled⟩

theorem render_arguments_iff (words : List String) (given : RenderRequest) :
    renderArguments words (requested []) = .ok given ↔
      ∃ items, Spells words items ∧ given = requested items ∧ inputs items ≠ [] := by
  constructor
  · intro reads
    obtain ⟨items, spelled⟩ := arguments_spell words (requested []) given reads
    rw [arguments_spelled words [] items spelled, List.nil_append] at reads
    by_cases none_ : inputs items = []
    · rw [if_pos none_] at reads
      cases reads
    · rw [if_neg none_] at reads
      cases reads
      exact ⟨items, spelled, rfl, none_⟩
  · intro ⟨items, spelled, same, some_⟩
    rw [arguments_spelled words [] items spelled, List.nil_append, if_neg some_, same]

theorem request_render_words (first : String) (rest : List String) :
    request ("render" :: first :: rest) =
      (renderArguments (first :: rest) (requested [])).map Request.render := rfl

theorem request_render_iff (words : List String) (given : Request) :
    request ("render" :: words) = .ok given ↔
      ∃ items, Spells words items ∧ given = .render (requested items) ∧ inputs items ≠ [] := by
  cases words with
  | nil =>
      constructor
      · intro reads
        cases reads
      · intro ⟨items, spelled, _, some_⟩
        cases spelled
        exact absurd rfl some_
  | cons first rest =>
      rw [request_render_words, map_ok_iff]
      constructor
      · intro ⟨request, found, same⟩
        obtain ⟨items, spelled, named, some_⟩ := (render_arguments_iff _ request).1 found
        exact ⟨items, spelled, by rw [← same, named], some_⟩
      · intro ⟨items, spelled, same, some_⟩
        exact ⟨_, (render_arguments_iff _ _).2 ⟨items, spelled, rfl, some_⟩, same.symm⟩

theorem plain_word_kept (word : String) (words : List String) (plain : word ≠ "--lenient") :
    (word :: words).filter (· ≠ "--lenient") = word :: words.filter (· ≠ "--lenient") :=
  List.filter_cons_of_pos (decide_eq_true plain)

-- The one word besides the option is the formula, and the option may stand anywhere.
theorem eval_arguments_iff (words : List String) (formula : Option String) (strictness : Strictness)
    (given : EvalRequest) :
    evalArguments words formula strictness = .ok given ↔
      formula.toList ++ words.filter (· ≠ "--lenient") = [given.formula] ∧
        given.strictness = if "--lenient" ∈ words then .lenient else strictness := by
  induction words, formula, strictness using evalArguments.induct with
  | case1 formula strictness =>
      cases given
      simp [evalArguments, eq_comm]
  | case2 strictness => simp [evalArguments]
  | case3 rest formula strictness hypothesis =>
      rw [evalArguments, hypothesis]
      simp
  | case4 other rest strictness plain hypothesis =>
      rw [evalArguments, hypothesis, plain_word_kept other rest plain]
      · simp [Ne.symm plain]
      · exact plain
  | case5 other rest formula strictness plain =>
      rw [evalArguments, plain_word_kept other rest plain]
      · simp
      · exact plain

-- What each command line asks for that can be made sense of.
inductive Understood : List String → Request → Prop
  | render (words : List String) (items : List Argument) (spelled : Spells words items)
      (some_ : inputs items ≠ []) : Understood ("render" :: words) (.render (requested items))
  | eval (words : List String) (formula : String)
      (only : words.filter (· ≠ "--lenient") = [formula]) :
      Understood ("eval" :: words)
        (.eval ⟨formula, if "--lenient" ∈ words then .lenient else .strict⟩)

theorem request_eval_words (first : String) (rest : List String) :
    request ("eval" :: first :: rest) =
      (evalArguments (first :: rest) none .strict).map Request.eval := rfl

theorem request_eval_iff (words : List String) (given : Request) :
    request ("eval" :: words) = .ok given ↔ ∃ formula, words.filter (· ≠ "--lenient") = [formula] ∧
      given = .eval ⟨formula, if "--lenient" ∈ words then .lenient else .strict⟩ := by
  cases words with
  | nil => simp [request]
  | cons first rest =>
      rw [request_eval_words, map_ok_iff]
      constructor
      · intro ⟨request, found, same⟩
        obtain ⟨only, strictness⟩ := (eval_arguments_iff _ _ _ request).1 found
        exact ⟨request.formula, only, by rw [← strictness, same]⟩
      · intro ⟨formula, only, same⟩
        exact ⟨_, (eval_arguments_iff (first :: rest) none .strict ⟨formula, _⟩).2 ⟨only, rfl⟩, same.symm⟩

theorem request_other (name : String) (words : List String) (noRender : name ≠ "render")
    (noEval : name ≠ "eval") : ∃ e, request (name :: words) = .error e := by
  cases words with
  | nil => exact ⟨.tooFewArguments, by simp [request]⟩
  | cons first rest =>
      refine ⟨.unknownCommand name, ?_⟩
      rw [request]
      · exact noRender
      · exact noEval

theorem request_iff (arguments : List String) (given : Request) :
    request arguments = .ok given ↔ Understood arguments given := by
  constructor
  · intro reads
    cases arguments with
    | nil => cases reads
    | cons name words =>
        by_cases render : name = "render"
        · rw [render] at reads ⊢
          obtain ⟨items, spelled, same, some_⟩ := (request_render_iff words given).1 reads
          exact same ▸ .render words items spelled some_
        · by_cases eval : name = "eval"
          · rw [eval] at reads ⊢
            obtain ⟨formula, only, same⟩ := (request_eval_iff words given).1 reads
            exact same ▸ .eval words formula only
          · obtain ⟨e, refused⟩ := request_other name words render eval
            cases refused.symm.trans reads
  · intro understood
    cases understood with
    | render words items spelled some_ =>
        exact (request_render_iff words _).2 ⟨items, spelled, rfl, some_⟩
    | eval words formula only => exact (request_eval_iff words _).2 ⟨formula, only, rfl⟩

-- The same arguments of each kind in the same order, however the kinds are mixed.
structure SameKinds (items other : List Argument) : Prop where
  inputs : inputs items = inputs other
  capacities : capacities items = capacities other
  lenient : .lenient ∈ items ↔ .lenient ∈ other
  settingsFiles : settingsFiles items = settingsFiles other
  givenBindings : givenBindings items = givenBindings other
  bindingFiles : bindingFiles items = bindingFiles other

theorem same_kinds_requested (items other : List Argument) (same : SameKinds items other) :
    requested items = requested other := by
  rw [requested, requested, same.inputs, same.capacities, same.settingsFiles, same.givenBindings,
    same.bindingFiles, decide_eq_decide.2 same.lenient]

theorem same_kinds_nothing (items : List Argument) (same : SameKinds items []) : items = [] := by
  cases items with
  | nil => rfl
  | cons item rest =>
      cases item with
      | capacity value => cases same.capacities
      | lenient => cases same.lenient.1 List.mem_cons_self
      | settingsFile path => cases same.settingsFiles
      | binding found => cases same.givenBindings
      | bindingFile path => cases same.bindingFiles
      | input name => cases same.inputs

theorem same_kinds_symm (items other : List Argument) (same : SameKinds items other) :
    SameKinds other items :=
  ⟨same.inputs.symm, same.capacities.symm, same.lenient.symm, same.settingsFiles.symm,
    same.givenBindings.symm, same.bindingFiles.symm⟩

theorem spelled_nothing (words : List String) (items : List Argument) (spelled : Spells words items) :
    words = [] ↔ items = [] := by
  cases spelled <;> simp

theorem request_same_kinds (words words' : List String) (items items' : List Argument)
    (spelled : Spells words items) (spelled' : Spells words' items')
    (same : SameKinds items items') : request ("render" :: words) = request ("render" :: words') := by
  have nothing : words = [] ↔ words' = [] := by
    rw [spelled_nothing words items spelled, spelled_nothing words' items' spelled']
    constructor
    · rintro rfl
      exact same_kinds_nothing items' (same_kinds_symm [] items' same)
    · rintro rfl
      exact same_kinds_nothing items same
  have read := arguments_spelled words [] items spelled
  have read' := arguments_spelled words' [] items' spelled'
  rw [List.nil_append] at read read'
  rw [same.inputs, same_kinds_requested items items' same, ← read'] at read
  cases words with
  | nil => rw [nothing.1 rfl]
  | cons first rest =>
      cases words' with
      | nil => cases nothing.2 rfl
      | cons first' rest' => rw [request_render_words, request_render_words, read]

end ArithTemplate.Command
