import ArithTemplate.Proofs.Accounting
import ArithTemplate.Proofs.Rendering.Cut
import ArithTemplate.Proofs.Wording

set_option autoImplicit false

open ArithTemplate.Text (bytes)

namespace ArithTemplate

-- What the log shows.
structure Line where
  level : Level
  text : Text

def Line.warns (line : Line) : Bool := line.level = .warn

def Event.line (event : Event) : Line := ⟨event.level, event.message.toList⟩

def Rendering.log (r : Rendering) : List Line := r.events.map Event.line

theorem event_line (event : Event) : event.line = ⟨event.level, event.wording⟩ :=
  congrArg (Line.mk event.level) (Worded.event event)

-- The line that goes with an issue.
def Issue.line : Issue → Line
  | ⟨_, .unclosed position⟩ => ⟨.warn, (Event.unclosed position).wording⟩
  | ⟨_, .overflow capacity⟩ => ⟨.warn, (Event.overflow capacity).wording⟩
  | issue => ⟨.warn, (Event.skipped issue).wording⟩

-- A formula that has a value is logged with it, and then the release of its nodes.
structure Evaluation where
  formula : Formula
  value : Binary64
  gives : formula.evaluate = .ok value

namespace Evaluation

variable (e : Evaluation)

def line : Line := ⟨.debug, (Event.evaluated e.formula e.value).wording⟩

def release : Line := ⟨.trace, (Event.released e.formula.size).wording⟩

def lines : List Line := [e.line, e.release]

end Evaluation

theorem issue_warns (issue : Issue) : issue.line.warns = true := by
  obtain ⟨offset, cause⟩ := issue
  cases cause <;> rfl

theorem failure_line (strictness : Strictness) (body : Text) (cause : Cause) (offset : Nat)
    (fails : outcome strictness body = .error cause) :
    (Event.skipped ⟨offset, cause⟩).line = Issue.line ⟨offset, cause⟩ := by
  rw [event_line]
  rcases outcome_misfit strictness body cause fails with ⟨misfit, rfl⟩ | ⟨misfit, rfl⟩ <;> rfl

-- The lines of a log are those of its issues and those of what was evaluated, each in their order.
inductive Woven : List Issue → List Evaluation → List Line → Prop where
  | nil : Woven [] [] []
  | warning (issue : Issue) (issues : List Issue) (evaluations : List Evaluation) (lines : List Line)
      (later : Woven issues evaluations lines) :
      Woven (issue :: issues) evaluations (issue.line :: lines)
  | evaluation (e : Evaluation) (issues : List Issue) (evaluations : List Evaluation)
      (lines : List Line) (later : Woven issues evaluations lines) :
      Woven issues (e :: evaluations) (e.line :: e.release :: lines)

namespace Woven

variable (issues : List Issue) (evaluations : List Evaluation) (lines : List Line)
  (woven : Woven issues evaluations lines)

include woven

theorem behind (earlier : List Evaluation) :
    Woven issues (earlier ++ evaluations) (earlier.flatMap Evaluation.lines ++ lines) := by
  induction earlier with
  | nil => exact woven
  | cons e earlier hypothesis => exact .evaluation e _ _ _ hypothesis

theorem warnings : lines.filter Line.warns = issues.map Issue.line := by
  induction woven with
  | nil => rfl
  | warning issue _ _ _ _ hypothesis =>
      rw [List.filter_cons_of_pos (issue_warns issue), hypothesis, List.map_cons]
  | evaluation e _ _ _ _ hypothesis => exact hypothesis

theorem others :
    lines.filter (fun line => !line.warns) = evaluations.flatMap Evaluation.lines := by
  induction woven with
  | nil => rfl
  | warning issue _ _ _ _ hypothesis =>
      rw [List.filter_cons_of_neg (by simp [issue_warns]), hypothesis]
  | evaluation e _ _ _ _ hypothesis =>
      rw [List.flatMap_cons, ← hypothesis]
      rfl

theorem debug_followed (before after : List Line) (line : Line) (split : lines = before ++ line :: after)
    (debug : line.level = .debug) :
    ∃ e ∈ evaluations, line = e.line ∧ ∃ later, after = e.release :: later := by
  induction woven generalizing before with
  | nil => simp at split
  | warning issue issues evaluations lines _ hypothesis =>
      cases before with
      | nil =>
          cases split
          cases debug.symm.trans (of_decide_eq_true (issue_warns issue))
      | cons _ before => exact hypothesis before (List.cons.inj split).2
  | evaluation e issues evaluations lines _ hypothesis =>
      match before with
      | [] =>
          cases split
          exact ⟨e, List.mem_cons_self, rfl, lines, rfl⟩
      | [_] =>
          cases split
          cases debug
      | _ :: _ :: before =>
          obtain ⟨found, member, shape⟩ := hypothesis before (List.cons.inj (List.cons.inj split).2).2
          exact ⟨found, List.mem_cons_of_mem _ member, shape⟩

theorem trace_preceded (before after : List Line) (line : Line) (split : lines = before ++ line :: after)
    (trace : line.level = .trace) :
    ∃ e ∈ evaluations, line = e.release ∧ ∃ earlier, before = earlier ++ [e.line] := by
  induction woven generalizing before with
  | nil => simp at split
  | warning issue issues evaluations lines _ hypothesis =>
      cases before with
      | nil =>
          cases split
          cases trace.symm.trans (of_decide_eq_true (issue_warns issue))
      | cons _ before =>
          obtain ⟨e, member, shape, earlier, rfl⟩ := hypothesis before (List.cons.inj split).2
          exact ⟨e, member, shape, _ :: earlier, rfl⟩
  | evaluation e issues evaluations lines _ hypothesis =>
      match before with
      | [] =>
          cases split
          cases trace
      | [_] =>
          cases split
          exact ⟨e, List.mem_cons_self, rfl, [], rfl⟩
      | _ :: _ :: before =>
          obtain ⟨found, member, shape, earlier, rfl⟩ :=
            hypothesis before (List.cons.inj (List.cons.inj split).2).2
          exact ⟨found, List.mem_cons_of_mem _ member, shape, _ :: _ :: earlier, rfl⟩

end Woven

-- A placeholder, and the text in front of its brace.
structure Visit where
  fore : Text
  body : Text

namespace Visit

def formula? (strictness : Strictness) (visit : Visit) : Option Formula :=
  (Formula.read strictness (Placeholder.ofBody visit.body).formula).toOption.map
    Formula.Reading.formula

def reaches (settings : Settings) (visit : Visit) : Bool :=
  bytes (unbounded settings.strictness visit.fore).text ≤ settings.capacity

end Visit

def visitsBehind (front : Text) : List Slot → List Visit
  | [] => []
  | slot :: rest => ⟨front ++ slot.literal, slot.body⟩ :: visitsBehind (front ++ slot.text) rest

-- The placeholders that a rendering gets to: there is room for what stands in front of them.
def reached (settings : Settings) (s : Text) : List Visit :=
  (visitsBehind [] (Layout.ofText s).slots).filter (Visit.reaches settings)

-- What the log of a rendering says, given the placeholders that were visited.
def Logged (strictness : Strictness) (visits : List Visit) (r : Rendering) : Prop :=
  ∃ evaluations : List Evaluation,
    evaluations.map Evaluation.formula = visits.filterMap (Visit.formula? strictness) ∧
      Woven r.issues evaluations r.log

section Parts

variable (strictness : Strictness) (visits : List Visit) (r : Rendering)

theorem fill_log (visit : Visit) : ∃ evaluations : List Evaluation,
    evaluations.map Evaluation.formula = (visit.formula? strictness).toList ∧
      (Rendering.fill strictness visit.body).2.map Event.line =
        evaluations.flatMap Evaluation.lines := by
  cases reads : Formula.read strictness (Placeholder.ofBody visit.body).formula with
  | error misfit =>
      refine ⟨[], ?_, ?_⟩
      · rw [Visit.formula?, reads]
        rfl
      · rw [Rendering.fill, reads]
        rfl
  | ok reading =>
      obtain ⟨value, gives⟩ := Formula.read_evaluates strictness _ reading reads
      have pair : (Rendering.fill strictness visit.body).2 =
          [.evaluated reading.formula value, .released reading.formula.size] := by
        rw [← Formula.tally_alone]
        simp only [Rendering.fill, reads, gives]
        cases (Placeholder.ofBody visit.body).pattern with
        | none => rfl
        | some pattern =>
            cases shape : Pattern.read pattern with
            | error misfit => simp only [shape, Formula.Reading.release]
            | ok pattern => simp only [shape, Formula.Reading.release]
      refine ⟨[⟨reading.formula, value, gives⟩], ?_, ?_⟩
      · rw [Visit.formula?, reads]
        rfl
      · rw [pair, List.map_cons, List.map_singleton, event_line, event_line]
        rfl

theorem after_log (issues : List Issue) (events : List Event) :
    (r.after issues events).log = events.map Event.line ++ r.log := List.map_append

theorem finish_logged (sink : Sink) (offset : Nat) :
    Logged strictness [] (Rendering.finish sink offset) := by
  refine ⟨[], rfl, ?_⟩
  rw [Rendering.finish]
  split
  · rw [Rendering.log, List.map_singleton, event_line]
    exact .warning ⟨offset, .overflow sink.capacity⟩ [] [] [] .nil
  · exact .nil

variable (logged : Logged strictness visits r)

include logged

theorem warned_logged (issue : Issue) (event : Event) (line : event.line = issue.line) :
    Logged strictness visits (r.after [issue] [event]) := by
  obtain ⟨evaluations, formulas, woven⟩ := logged
  refine ⟨evaluations, formulas, ?_⟩
  rw [after_log, List.map_singleton, line]
  exact .warning issue _ _ _ woven

theorem visit_logged (visit : Visit) : Logged strictness (visit :: visits)
    (r.after [] (Rendering.fill strictness visit.body).2) := by
  obtain ⟨evaluations, formulas, woven⟩ := logged
  obtain ⟨here, formula, lines⟩ := fill_log strictness visit
  refine ⟨here ++ evaluations, ?_, ?_⟩
  · rw [List.map_append, formula, formulas, List.filterMap_cons]
    cases visit.formula? strictness <;> rfl
  · rw [after_log, lines]
    exact woven.behind _ _ _ here

end Parts

theorem close_logged (strictness : Strictness) (trailing : Text) (unclosed : Option Text)
    (offset : Nat) (sink : Sink) :
    Logged strictness [] (Rendering.close strictness trailing unclosed offset sink) := by
  unfold Rendering.close
  cases unclosed with
  | none => exact finish_logged strictness _ offset
  | some tail =>
      dsimp only
      split
      · exact finish_logged strictness _ offset
      · exact warned_logged strictness [] _ (finish_logged strictness _ offset) ⟨_, .unclosed _⟩ _
          (event_line (.unclosed _))

theorem visits_behind (front : Text) (slots : List Slot) (visit : Visit)
    (member : visit ∈ visitsBehind front slots) : front <+: visit.fore := by
  induction slots generalizing front with
  | nil => cases member
  | cons slot rest hypothesis =>
      rcases List.mem_cons.1 member with rfl | later
      · exact List.prefix_append front slot.literal
      · exact (List.prefix_append front slot.text).trans (hypothesis _ later)

section Write

variable (settings : Settings)

-- What stands in front of a text gives `t`, whatever the text.
def Fore (front t : Text) : Prop :=
  ∀ more, (unbounded settings.strictness (front ++ more)).text =
    t ++ (unbounded settings.strictness more).text

theorem fore_slot (front t : Text) (slot : Slot) (literal : '{' ∉ slot.literal) (body : '}' ∉ slot.body)
    (fore : Fore settings front t) :
    Fore settings (front ++ slot.text) (t ++ slot.output (outcome settings.strictness)) := by
  intro more
  rw [List.append_assoc, fore, unbounded_text _ (slot.text ++ more),
    Layout.of_text_slot slot more literal body, Layout.following_output, unbounded_text,
    List.append_assoc]

theorem fore_literal (front t literal : Text) (plain : '{' ∉ literal) (fore : Fore settings front t) :
    (unbounded settings.strictness (front ++ literal)).text = t ++ literal := by
  rw [fore, unbounded_text, Layout.plain_output _ _ literal plain]

theorem none_reached (front t : Text) (slots : List Slot) (fore : Fore settings front t)
    (exceeds : settings.capacity < bytes t) :
    (visitsBehind front slots).filter (Visit.reaches settings) = [] := by
  refine List.filter_eq_nil_iff.2 fun visit member => ?_
  obtain ⟨more, whole⟩ := visits_behind front slots visit member
  have longer := Text.bytes_prefix t _ (List.prefix_append t (unbounded settings.strictness more).text)
  rw [← fore more, whole] at longer
  simp only [Visit.reaches, decide_eq_true_eq]
  omega

-- Where not even the text in front of a placeholder fits, the rendering stops.
theorem literal_cut (last : Nat → Sink → Rendering) (slot : Slot) (rest : List Slot) (offset : Nat)
    (t : Text) (exceeds : settings.capacity < bytes (t ++ slot.literal)) :
    Rendering.write settings.strictness last (slot :: rest) offset (Sink.holding settings.capacity t) =
      Rendering.finish (Sink.holding settings.capacity (t ++ slot.literal)) offset := by
  rw [Rendering.write, Sink.holding_push]
  dsimp only
  rw [if_pos ((Sink.holding_full _ _).2 exceeds)]

theorem write_logged (trailing : Text) (unclosed : Option Text) (slots : List Slot) (offset : Nat)
    (front t : Text) (proper : Layout.Proper ⟨slots, trailing, unclosed⟩) (fore : Fore settings front t) :
    Logged settings.strictness ((visitsBehind front slots).filter (Visit.reaches settings))
      (Rendering.write settings.strictness (Rendering.close settings.strictness trailing unclosed) slots
        offset (Sink.holding settings.capacity t)) := by
  induction slots generalizing offset front t with
  | nil => exact close_logged settings.strictness trailing unclosed offset _
  | cons slot rest hypothesis =>
      have literal := proper.literals slot List.mem_cons_self
      have body := proper.bodies slot List.mem_cons_self
      have next := fore_slot settings front t slot literal body fore
      have later := hypothesis (offset + bytes slot.text) _ _
        (Layout.proper_rest slot rest trailing unclosed proper) next
      have place := fore_literal settings front t slot.literal literal fore
      rw [visitsBehind]
      by_cases exceeds : settings.capacity < bytes (t ++ slot.literal)
      · have missed : Visit.reaches settings ⟨front ++ slot.literal, slot.body⟩ = false := by
          rw [Visit.reaches, place]
          exact decide_eq_false (Nat.not_le.2 exceeds)
        have beyond : settings.capacity < bytes (t ++ slot.output (outcome settings.strictness)) := by
          have longer := Text.bytes_prefix (t ++ slot.literal) _
            (List.prefix_append _ (shown (outcome settings.strictness slot.body)))
          rw [List.append_assoc] at longer
          exact Nat.lt_of_lt_of_le exceeds longer
        rw [literal_cut settings _ slot rest offset t exceeds, List.filter_cons_of_neg (by simp [missed]),
          none_reached settings _ _ rest next beyond]
        exact finish_logged settings.strictness _ offset
      · have visited : Visit.reaches settings ⟨front ++ slot.literal, slot.body⟩ = true := by
          rw [Visit.reaches, place]
          exact decide_eq_true (Nat.le_of_not_lt exceeds)
        rw [List.filter_cons_of_pos visited]
        have step := write_slot settings.strictness
          (Rendering.close settings.strictness trailing unclosed) slot rest offset settings.capacity t
        generalize Rendering.write settings.strictness
          (Rendering.close settings.strictness trailing unclosed) (slot :: rest) offset
          (Sink.holding settings.capacity t) = r at step ⊢
        cases step with
        | literalCut more => exact absurd more exceeds
        | failed cause fails fits =>
            have warned := warned_logged settings.strictness _ _ later ⟨offset + bytes slot.literal, cause⟩
              _ (failure_line settings.strictness slot.body cause _ fails)
            have logged := visit_logged settings.strictness _ _ warned ⟨front ++ slot.literal, slot.body⟩
            rwa [Rendering.after, Rendering.after, List.nil_append, ← List.append_assoc] at logged
        | valueCut text gives beyond =>
            rw [none_reached settings _ _ rest next beyond]
            exact visit_logged settings.strictness _ _ (finish_logged settings.strictness _ offset) _
        | whole text gives fits => exact visit_logged settings.strictness _ _ later _

end Write

-- The log says what the result says. Its warnings are those of the issues. The rest is, for each
-- placeholder that is reached and reads, its formula with its value and behind it the release of the
-- nodes of that formula.
theorem log_follows_rendering (settings : Settings) (s : Text) :
    let r := render settings s
    r.log.filter Line.warns = r.issues.map Issue.line ∧
      ∃ evaluations : List Evaluation,
        evaluations.map Evaluation.formula =
          (reached settings s).filterMap (Visit.formula? settings.strictness) ∧
        r.log.filter (fun line => !line.warns) = evaluations.flatMap Evaluation.lines ∧
        (∀ before line after, r.log = before ++ line :: after → line.level = .debug →
          ∃ e ∈ evaluations, line = e.line ∧ ∃ later, after = e.release :: later) ∧
        ∀ before line after, r.log = before ++ line :: after → line.level = .trace →
          ∃ e ∈ evaluations, line = e.release ∧ ∃ earlier, before = earlier ++ [e.line] := by
  intro r
  have start : Fore settings [] [] := fun _ => rfl
  have logged := write_logged settings (Layout.ofText s).trailing (Layout.ofText s).unclosed
    (Layout.ofText s).slots 0 [] [] (Layout.of_text_proper s).1 start
  rw [Sink.holding_nil] at logged
  change Logged settings.strictness (reached settings s) r at logged
  obtain ⟨evaluations, formulas, woven⟩ := logged
  exact ⟨woven.warnings, evaluations, formulas, woven.others,
    fun before line after => woven.debug_followed _ _ _ before after line,
    fun before line after => woven.trace_preceded _ _ _ before after line⟩

-- The pattern of the first placeholder fails and the value of the second one is cut, yet both formulas
-- are logged.
theorem logged_though_cut :
    let r := render ⟨0, .strict⟩ ['{', '1', ':', '%', 'd', '}', '{', '4', '}']
    let one : Evaluation := ⟨.constant (.finite false 0x3FF0000000000000), _, rfl⟩
    let four : Evaluation := ⟨.constant (.finite false 0x4010000000000000), _, rfl⟩
    let skipped : Issue := ⟨0, .pattern ⟨.unknownConversion 'd', 1⟩⟩
    let cut : Issue := ⟨0, .overflow 0⟩
    let before := [one.line, one.release, skipped.line]
    let after := [four.release, cut.line]
    r.log = before ++ four.line :: after ∧ four.line.level = .debug ∧
      (∃ e : Evaluation, four.line = e.line ∧ ∃ later, after = e.release :: later) ∧
      r.issues.map Issue.line = [skipped.line, cut.line] := by
  intro r one four skipped cut before after
  have events : r.events = [.evaluated one.formula one.value, .released 1, .skipped skipped,
      .evaluated four.formula four.value, .released 1, .overflow 0] := by
    decide +kernel
  have log : r.log = before ++ four.line :: after := by
    rw [Rendering.log, events]
    simp only [List.map_cons, List.map_nil, event_line]
    rfl
  obtain ⟨warnings, evaluations, _, _, debug, _⟩ := log_follows_rendering ⟨0, .strict⟩
    ['{', '1', ':', '%', 'd', '}', '{', '4', '}']
  obtain ⟨e, _, followed⟩ := debug before four.line after log rfl
  refine ⟨log, rfl, ⟨e, followed⟩, ?_⟩
  rw [← warnings]
  change r.log.filter Line.warns = _
  rw [log]
  rfl

end ArithTemplate
