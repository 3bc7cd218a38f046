import ArithTemplate.Command.Run
import ArithTemplate.Proofs.Command.Arguments
import ArithTemplate.Proofs.Command.Warnings
import ArithTemplate.Proofs.Json.Bindings
import ArithTemplate.Proofs.Rendering.Lines
import ArithTemplate.Proofs.Substitution.Replacing

set_option autoImplicit false

open ArithTemplate.Text (bytes)

namespace ArithTemplate.Command

-- The settings that a command line starts from.
inductive Configured (sources : Sources) : Option String → Settings → Prop
  | default : Configured sources none {}
  | file (path : String) (text : Text) (base : Settings) (reads : sources.file path = .ok text)
      (shape : Settings.ofJson text = .ok base) : Configured sources (some path) base

-- The text that each input stands for. The first `-` takes all of the standard input.
def sourceTexts (source : String → Text) : List String → Text → List Text
  | [], _ => []
  | input :: rest, standard =>
      if input = "-" then standard :: sourceTexts source rest []
      else source input :: sourceTexts source rest standard

-- What the arguments name is there and reads.
structure Pipeline (sources : Sources) (items : List Argument) where
  base : Settings
  found : String → Bindings
  source : String → Text
  standard : Text
  configured : Configured sources (settingsFiles items).getLast? base
  foundRead : ∀ path ∈ bindingFiles items,
    ∃ text, sources.file path = .ok text ∧ Bindings.ofJson text = .ok (found path)
  sourceRead : ∀ input ∈ inputs items, input ≠ "-" → sources.file input = .ok (source input)
  standardRead : "-" ∈ inputs items → sources.standardInput = .ok standard

namespace Pipeline

variable {sources : Sources} {items : List Argument} (p : Pipeline sources items)

def settings : Settings :=
  ⟨(capacities items).getLast?.getD p.base.capacity,
    if .lenient ∈ items then .lenient else p.base.strictness⟩

def bindings : Bindings := givenBindings items ++ (bindingFiles items).flatMap p.found

def renderings : List Rendering :=
  (sourceTexts p.source (inputs items) p.standard).map fun text =>
    render p.settings (p.bindings.replace text)

def outcome : Outcome where
  code := 0
  output := p.renderings.flatMap fun r => r.text ++ ['\n']
  errors := warnings (noted (inputs items) p.renderings)

end Pipeline

theorem substituted_replaces (bindings : Bindings) (text : Text) :
    substituted bindings text = bindings.replace text := by
  cases bindings with
  | nil => exact (Bindings.replace_nothing text).symm
  | cons first rest => rfl

theorem settings_iff (sources : Sources) (request : RenderRequest) (given : Settings) :
    settings sources request = .ok given ↔ ∃ base, Configured sources request.settingsFile base ∧
      given = ⟨request.capacity.getD base.capacity,
        if request.lenient then .lenient else base.strictness⟩ := by
  unfold settings
  cases request.settingsFile with
  | none =>
      constructor
      · intro reads
        cases reads
        exact ⟨{}, .default, rfl⟩
      · intro ⟨base, configured, same⟩
        cases configured
        rw [same]
        rfl
  | some path =>
      constructor
      · intro reads
        obtain ⟨text, here, reads⟩ := bind_gives _ _ _ reads
        obtain ⟨base, shape, reads⟩ := bind_gives _ _ _ reads
        cases reads
        exact ⟨base, .file path text base (map_error_gives _ _ _ here) (map_error_gives _ _ _ shape), rfl⟩
      · intro ⟨base, configured, same⟩
        cases configured with
        | file _ text _ reads shape =>
            rw [same]
            simp only [reads, map_error_ok, shape, bind, Except.bind]
            rfl

theorem file_bindings_found (sources : Sources) (found : String → Bindings) (paths : List String)
    (read : ∀ path ∈ paths,
      ∃ text, sources.file path = .ok text ∧ Bindings.ofJson text = .ok (found path)) :
    fileBindings sources paths = .ok (paths.flatMap found) := by
  induction paths with
  | nil => rfl
  | cons path rest hypothesis =>
      obtain ⟨⟨text, reads, shape⟩, later⟩ := List.forall_mem_cons.1 read
      rw [fileBindings, reads, hypothesis later]
      simp only [map_error_ok, shape, bind, Except.bind, pure, Except.pure, List.flatMap_cons]

def fileFound (sources : Sources) (path : String) : Bindings :=
  ((sources.file path).toOption.bind fun text => (Bindings.ofJson text).toOption).getD []

theorem file_bindings_read (sources : Sources) (paths : List String) (more : Bindings)
    (reads : fileBindings sources paths = .ok more) :
    ∀ path ∈ paths, ∃ text, sources.file path = .ok text ∧
      Bindings.ofJson text = .ok (fileFound sources path) := by
  induction paths generalizing more with
  | nil => exact nofun
  | cons path rest hypothesis =>
      obtain ⟨text, here, reads⟩ := bind_gives _ _ _ reads
      obtain ⟨found, shape, reads⟩ := bind_gives _ _ _ reads
      obtain ⟨later, behind, _⟩ := bind_gives _ _ _ reads
      have file := map_error_gives _ _ _ here
      have read := map_error_gives _ _ _ shape
      refine List.forall_mem_cons.2 ⟨⟨text, file, ?_⟩, hypothesis later behind⟩
      rw [fileFound, file]
      simp [read, Except.toOption]

theorem input_texts_source (sources : Sources) (source : String → Text) (names : List String)
    (standard : Text) (input : Except ReadFault Text)
    (read : ∀ name ∈ names, name ≠ "-" → sources.file name = .ok (source name))
    (standardRead : "-" ∈ names → input = .ok standard) :
    inputTexts sources names input = .ok (sourceTexts source names standard) := by
  induction names generalizing standard input with
  | nil => rfl
  | cons name rest hypothesis =>
      obtain ⟨here, later⟩ := List.forall_mem_cons.1 read
      rw [inputTexts, sourceTexts]
      by_cases dash : name = "-"
      · have first := standardRead (dash ▸ List.mem_cons_self)
        rw [if_pos dash, if_pos dash, first, hypothesis [] (.ok []) later fun _ => rfl]
        rfl
      · have behind := hypothesis standard input later fun member =>
          standardRead (List.mem_cons_of_mem _ member)
        rw [if_neg dash, if_neg dash, here dash, behind]
        rfl

theorem input_texts_read (sources : Sources) (names : List String) (input : Except ReadFault Text)
    (texts : List Text) (reads : inputTexts sources names input = .ok texts) :
    (∀ name ∈ names, name ≠ "-" →
      sources.file name = .ok ((sources.file name).toOption.getD [])) ∧
      ("-" ∈ names → input = .ok (input.toOption.getD [])) := by
  induction names generalizing input texts with
  | nil => exact ⟨nofun, nofun⟩
  | cons name rest hypothesis =>
      rw [inputTexts] at reads
      by_cases dash : name = "-"
      · rw [if_pos dash] at reads
        obtain ⟨text, here, reads⟩ := bind_gives _ _ _ reads
        obtain ⟨more, behind, _⟩ := bind_gives _ _ _ reads
        have first := map_error_gives _ _ _ here
        refine ⟨List.forall_mem_cons.2 ⟨fun other => absurd dash other, ?_⟩, fun _ => ?_⟩
        · exact (hypothesis _ more behind).1
        · rw [first]
          rfl
      · rw [if_neg dash] at reads
        obtain ⟨text, here, reads⟩ := bind_gives _ _ _ reads
        obtain ⟨more, behind, _⟩ := bind_gives _ _ _ reads
        have first := map_error_gives _ _ _ here
        obtain ⟨files, standard⟩ := hypothesis _ more behind
        refine ⟨List.forall_mem_cons.2 ⟨fun _ => ?_, files⟩, fun member => ?_⟩
        · rw [first]
          rfl
        · rcases List.mem_cons.1 member with same | later
          · exact absurd same.symm dash
          · exact standard later

section Run

variable {sources : Sources} {items : List Argument}

theorem pipeline_settings (p : Pipeline sources items) :
    settings sources (requested items) = .ok p.settings := by
  rw [settings_iff]
  refine ⟨p.base, p.configured, ?_⟩
  by_cases lenient : .lenient ∈ items
  · simp [Pipeline.settings, requested, lenient]
  · simp [Pipeline.settings, requested, lenient]

theorem pipeline_runs (p : Pipeline sources items) :
    runRender sources (requested items) = .ok p.outcome := by
  have found := file_bindings_found sources p.found _ p.foundRead
  have sourced := input_texts_source sources p.source _ p.standard _ p.sourceRead p.standardRead
  rw [runRender, pipeline_settings p]
  change (fileBindings sources (bindingFiles items) >>= fun more =>
    inputTexts sources (inputs items) sources.standardInput >>= _) = _
  rw [found, sourced]
  rw [Pipeline.outcome, warnings_noted]
  simp only [substituted_replaces]
  rfl

theorem run_has_pipeline (outcome : Outcome)
    (runs : runRender sources (requested items) = .ok outcome) : Nonempty (Pipeline sources items) := by
  obtain ⟨given, configured, runs⟩ := bind_gives _ _ _ runs
  obtain ⟨more, found, runs⟩ := bind_gives _ _ _ runs
  obtain ⟨texts, sourced, _⟩ := bind_gives _ _ _ runs
  obtain ⟨base, start, _⟩ := (settings_iff sources _ given).1 configured
  obtain ⟨sourceRead, standardRead⟩ := input_texts_read sources _ _ texts sourced
  exact ⟨base, fileFound sources, _, _, start, file_bindings_read sources _ more found, sourceRead,
    standardRead⟩

theorem run_render_iff (outcome : Outcome) :
    runRender sources (requested items) = .ok outcome ↔
      ∃ p : Pipeline sources items, outcome = p.outcome := by
  constructor
  · intro runs
    obtain ⟨p⟩ := run_has_pipeline outcome runs
    cases (pipeline_runs p).symm.trans runs
    exact ⟨p, rfl⟩
  · intro ⟨p, same⟩
    rw [same]
    exact pipeline_runs p

end Run

theorem attempt_render_iff (sources : Sources) (words : List String) (outcome : Outcome) :
    attempt sources ("render" :: words) = .ok outcome ↔
      ∃ items, Spells words items ∧ inputs items ≠ [] ∧
        ∃ p : Pipeline sources items, outcome = p.outcome := by
  constructor
  · intro runs
    obtain ⟨given, reads, runs⟩ := bind_gives _ _ _ runs
    obtain ⟨items, spelled, rfl, some_⟩ :=
      (request_render_iff words given).1 (map_error_gives _ _ _ reads)
    exact ⟨items, spelled, some_, (run_render_iff outcome).1 runs⟩
  · intro ⟨items, spelled, some_, piped⟩
    have reads := (request_render_iff words _).2 ⟨items, spelled, rfl, some_⟩
    rw [attempt, reads]
    exact (run_render_iff outcome).2 piped

theorem run_succeeds_iff (sources : Sources) (words : List String) (outcome : Outcome) :
    run sources ("render" :: words) = outcome ∧ outcome.code = 0 ↔
      attempt sources ("render" :: words) = .ok outcome := by
  rw [run]
  cases attempted : attempt sources ("render" :: words) with
  | error failure =>
      constructor
      · rintro ⟨rfl, success⟩
        cases success
      · intro runs
        cases runs
  | ok given =>
      obtain ⟨items, _, _, p, rfl⟩ := (attempt_render_iff sources words given).1 attempted
      constructor
      · rintro ⟨rfl, _⟩
        rfl
      · intro same
        cases same
        exact ⟨rfl, rfl⟩

theorem warning_flat (input : String) (issue : Issue) (name : Flat input.toList)
    (said : Flat issue.cause.wording) : Flat (warningLine input issue) := by
  have place : Flat (input.toList ++ ":".toList ++ Numeral.ofNat issue.offset) :=
    .append (.append name .literal) (.number issue.offset)
  exact .append (.append (.append .literal place) .literal) said

theorem noted_flat {sources : Sources} {items : List Argument} (p : Pipeline sources items)
    (input : String) (issue : Issue) (member : (input, issue) ∈ noted (inputs items) p.renderings)
    (name : Flat input.toList) : Flat (warningLine input issue) := by
  obtain ⟨⟨_, r⟩, zipped, listed⟩ := List.mem_flatMap.1 member
  obtain ⟨_, found, same⟩ := List.mem_map.1 listed
  cases same
  obtain ⟨text, _, rendered⟩ := List.mem_map.1 (List.of_mem_zip zipped).2
  rw [← rendered] at found
  exact warning_flat _ issue name (issue_flat p.settings _ issue found)

-- A name given twice keeps its first value, and the second `-` reads nothing.
example : run ⟨fun _ => .error .missing, .ok ['{', '_', 'x', '_', '}']⟩
    ["render", "--var", "x=2", "-", "--lenient", "--var", "x=3", "-"] =
      ⟨0, ['2', '\n', '\n'], []⟩ := by
  decide +kernel

end ArithTemplate.Command
