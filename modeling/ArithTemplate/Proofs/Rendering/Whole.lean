import ArithTemplate.Proofs.Clipping
import ArithTemplate.Proofs.Rendering.Layout
import ArithTemplate.Proofs.Rendering.Outcome

set_option autoImplicit false

open ArithTemplate.Text (bytes bytes_append)

namespace ArithTemplate

def shown : Except Cause Text → Text
  | .ok text => text
  | .error _ => []

def Slot.output (outcome : Text → Except Cause Text) (slot : Slot) : Text :=
  slot.literal ++ shown (outcome slot.body)

-- An issue, and what is written before the brace it is about.
structure Report where
  before : Text
  issue : Issue

def unclosedReport (trailing : Text) (unclosed : Option Text) (offset : Nat) (before : Text) :
    List Report :=
  match unclosed with
  | none => []
  | some _ => [⟨before ++ trailing, ⟨offset + bytes trailing, .unclosed (offset + bytes trailing)⟩⟩]

def reportsFrom (outcome : Text → Except Cause Text) (last : Nat → Text → List Report) :
    List Slot → Nat → Text → List Report
  | [], offset, before => last offset before
  | slot :: rest, offset, before =>
      let later := reportsFrom outcome last rest (offset + bytes slot.text)
        (before ++ slot.output outcome)
      match outcome slot.body with
      | .ok _ => later
      | .error cause => ⟨before ++ slot.literal, ⟨offset + bytes slot.literal, cause⟩⟩ :: later

namespace Layout

def keptTail (strictness : Strictness) (unclosed : Option Text) : Text :=
  match strictness with
  | .strict => unclosedText unclosed
  | .lenient => []

def output (strictness : Strictness) (outcome : Text → Except Cause Text) (layout : Layout) : Text :=
  layout.slots.flatMap (Slot.output outcome) ++
    (layout.trailing ++ keptTail strictness layout.unclosed)

def reports (outcome : Text → Except Cause Text) (layout : Layout) : List Report :=
  reportsFrom outcome (unclosedReport layout.trailing layout.unclosed) layout.slots 0 []

theorem kept_tail_none (strictness : Strictness) : keptTail strictness none = [] := by
  cases strictness <;> rfl

theorem kept_tail_lenient (unclosed : Option Text) : keptTail .lenient unclosed = [] := rfl

theorem plain_output (strictness : Strictness) (outcome : Text → Except Cause Text) (s : Text)
    (plain : '{' ∉ s) : (ofText s).output strictness outcome = s := by
  rw [of_text_plain s plain, output, kept_tail_none, List.append_nil]
  rfl

theorem following_output (strictness : Strictness) (outcome : Text → Except Cause Text) (slot : Slot)
    (layout : Layout) : (following slot layout).output strictness outcome =
      slot.output outcome ++ layout.output strictness outcome := by
  simp [following, output]

theorem output_cons (strictness : Strictness) (outcome : Text → Except Cause Text) (t : Text)
    (slot : Slot) (rest : List Slot) (trailing : Text) (unclosed : Option Text) :
    t ++ output strictness outcome ⟨slot :: rest, trailing, unclosed⟩ =
      t ++ slot.literal ++ (shown (outcome slot.body) ++
        output strictness outcome ⟨rest, trailing, unclosed⟩) := by
  simp [output, Slot.output]

end Layout

-- What a rendering of the given capacity keeps of a whole output and of its reports.
structure CutTo (capacity : Nat) (whole : Text) (reports : List Report) (r : Rendering) : Prop where
  text : r.text = Text.clip capacity whole
  truncated : r.truncated = decide (capacity < bytes whole)
  issues : ∃ offset, r.issues =
    (reports.filter fun report => decide (bytes report.before ≤ capacity)).map Report.issue ++
      if capacity < bytes whole then [⟨offset, .overflow capacity⟩] else []

theorem finish_cut (capacity : Nat) (t : Text) (offset : Nat) :
    CutTo capacity t [] (Rendering.finish (Sink.holding capacity t) offset) := by
  unfold Rendering.finish Sink.holding
  by_cases exceeds : capacity < bytes t
  · rw [if_pos (decide_eq_true exceeds)]
    exact ⟨rfl, (decide_eq_true exceeds).symm, offset, by simp [exceeds]⟩
  · rw [if_neg (by simpa using exceeds)]
    exact ⟨rfl, (decide_eq_false exceeds).symm, offset, by simp [exceeds]⟩

-- Nothing that comes after a cut is kept.
theorem finish_cut_over (capacity : Nat) (t more : Text) (reports : List Report) (offset : Nat)
    (exceeds : capacity < bytes t) (later : ∀ report ∈ reports, t <+: report.before) :
    CutTo capacity (t ++ more) reports (Rendering.finish (Sink.holding capacity t) offset) := by
  obtain ⟨text, truncated, at_, issues⟩ := finish_cut capacity t offset
  have longer : capacity < bytes (t ++ more) := by
    rw [bytes_append]
    omega
  have dropped : (reports.filter fun report => decide (bytes report.before ≤ capacity)) = [] := by
    refine List.filter_eq_nil_iff.2 fun report member => ?_
    have beyond := Text.bytes_prefix t report.before (later report member)
    simp only [decide_eq_true_eq]
    omega
  refine ⟨text.trans (Text.clip_append_over capacity t more exceeds).symm, ?_, at_, ?_⟩
  · rw [truncated, decide_eq_true exceeds, decide_eq_true longer]
  · rw [issues, dropped, if_pos exceeds, if_pos longer]
    rfl

theorem cut_events (capacity : Nat) (whole : Text) (reports : List Report) (r : Rendering)
    (events : List Event) (cut : CutTo capacity whole reports r) :
    CutTo capacity whole reports (r.after [] events) := by
  obtain ⟨text, truncated, issues⟩ := cut
  exact ⟨text, truncated, issues⟩

theorem cut_report (capacity : Nat) (whole : Text) (report : Report) (reports : List Report)
    (r : Rendering) (events : List Event) (fits : bytes report.before ≤ capacity)
    (cut : CutTo capacity whole reports r) :
    CutTo capacity whole (report :: reports) (r.after [report.issue] events) := by
  obtain ⟨text, truncated, offset, issues⟩ := cut
  refine ⟨text, truncated, offset, ?_⟩
  rw [List.filter_cons_of_pos (by simpa using fits), Rendering.after, issues]
  rfl

theorem slot_bytes (slot : Slot) :
    bytes slot.text = bytes slot.literal + bytes slot.body + 2 := by
  simp only [Slot.text, bytes_append, bytes, show '{'.utf8Size = 1 from rfl,
    show '}'.utf8Size = 1 from rfl]
  omega

section Write

variable (strictness : Strictness) (trailing : Text) (unclosed : Option Text)

theorem report_cases (outcome : Text → Except Cause Text) (last : Nat → Text → List Report)
    (slot : Slot) (rest : List Slot) (offset : Nat) (before : Text) (report : Report)
    (member : report ∈ reportsFrom outcome last (slot :: rest) offset before) :
    (∃ cause, outcome slot.body = .error cause ∧
      report = ⟨before ++ slot.literal, ⟨offset + bytes slot.literal, cause⟩⟩) ∨
      report ∈ reportsFrom outcome last rest (offset + bytes slot.text)
        (before ++ slot.output outcome) := by
  rw [reportsFrom] at member
  cases given : outcome slot.body with
  | ok text =>
      simp only [given] at member
      exact .inr member
  | error cause =>
      simp only [given] at member
      rcases List.mem_cons.1 member with same | later
      · exact .inl ⟨cause, rfl, same⟩
      · exact .inr later

theorem reports_later (outcome : Text → Except Cause Text) (slots : List Slot) (offset : Nat)
    (before : Text) (report : Report)
    (member : report ∈ reportsFrom outcome (unclosedReport trailing unclosed) slots offset before) :
    before <+: report.before := by
  induction slots generalizing offset before with
  | nil =>
      cases unclosed with
      | none => cases member
      | some tail =>
          cases List.mem_singleton.1 member
          exact List.prefix_append before trailing
  | cons slot rest hypothesis =>
      rcases report_cases outcome _ slot rest offset before report member with ⟨cause, _, rfl⟩ | later
      · exact List.prefix_append before slot.literal
      · exact (List.prefix_append before _).trans (hypothesis _ _ later)

theorem reports_past_literal (outcome : Text → Except Cause Text) (slot : Slot) (rest : List Slot)
    (offset : Nat) (before : Text) (report : Report)
    (member : report ∈
      reportsFrom outcome (unclosedReport trailing unclosed) (slot :: rest) offset before) :
    before ++ slot.literal <+: report.before := by
  rcases report_cases outcome _ slot rest offset before report member with ⟨cause, _, rfl⟩ | later
  · exact List.prefix_refl _
  · have output := reports_later trailing unclosed outcome rest _ _ report later
    rw [Slot.output, ← List.append_assoc] at output
    exact (List.prefix_append _ _).trans output

theorem close_cut (capacity : Nat) (t : Text) (offset : Nat) :
    CutTo capacity (t ++ (trailing ++ Layout.keptTail strictness unclosed))
      (unclosedReport trailing unclosed offset t)
      (Rendering.close strictness trailing unclosed offset (Sink.holding capacity t)) := by
  unfold Rendering.close
  rw [Sink.holding_push, ← List.append_assoc]
  cases unclosed with
  | none =>
      rw [Layout.kept_tail_none, List.append_nil]
      exact finish_cut capacity (t ++ trailing) offset
  | some tail =>
      by_cases exceeds : capacity < bytes (t ++ trailing)
      · simp only [Sink.holding_full, if_pos exceeds]
        refine finish_cut_over _ _ _ _ offset exceeds fun report member => ?_
        cases List.mem_singleton.1 member
        exact List.prefix_refl _
      · simp only [Sink.holding_full, if_neg exceeds]
        refine cut_report _ _ ⟨t ++ trailing, _⟩ [] _ _ (by simpa using exceeds) ?_
        cases strictness with
        | strict =>
            rw [Sink.holding_push]
            exact finish_cut capacity _ offset
        | lenient =>
            rw [Layout.kept_tail_lenient, List.append_nil]
            exact finish_cut capacity _ offset

-- What can become of a placeholder and the text in front of it, by how far the capacity reaches.
inductive WrittenSlot (last : Nat → Sink → Rendering) (slot : Slot) (rest : List Slot)
    (offset capacity : Nat) (t : Text) : Rendering → Prop
  | literalCut (exceeds : capacity < bytes (t ++ slot.literal)) :
      WrittenSlot last slot rest offset capacity t
        (Rendering.finish (Sink.holding capacity (t ++ slot.literal)) offset)
  | failed (cause : Cause) (fails : outcome strictness slot.body = .error cause)
      (fits : bytes (t ++ slot.output (outcome strictness)) ≤ capacity) :
      WrittenSlot last slot rest offset capacity t
        ((Rendering.write strictness last rest (offset + bytes slot.text)
          (Sink.holding capacity (t ++ slot.output (outcome strictness)))).after
            [⟨offset + bytes slot.literal, cause⟩]
            ((Rendering.fill strictness slot.body).2 ++
              [.skipped ⟨offset + bytes slot.literal, cause⟩]))
  | valueCut (text : Text) (gives : outcome strictness slot.body = .ok text)
      (exceeds : capacity < bytes (t ++ slot.output (outcome strictness))) :
      WrittenSlot last slot rest offset capacity t
        ((Rendering.finish (Sink.holding capacity (t ++ slot.output (outcome strictness))) offset).after
          [] (Rendering.fill strictness slot.body).2)
  | whole (text : Text) (gives : outcome strictness slot.body = .ok text)
      (fits : bytes (t ++ slot.output (outcome strictness)) ≤ capacity) :
      WrittenSlot last slot rest offset capacity t
        ((Rendering.write strictness last rest (offset + bytes slot.text)
          (Sink.holding capacity (t ++ slot.output (outcome strictness)))).after
            [] (Rendering.fill strictness slot.body).2)

theorem write_slot (last : Nat → Sink → Rendering) (slot : Slot) (rest : List Slot)
    (offset capacity : Nat) (t : Text) :
    WrittenSlot strictness last slot rest offset capacity t
      (Rendering.write strictness last (slot :: rest) offset (Sink.holding capacity t)) := by
  have next : offset + bytes slot.literal + bytes slot.body + 2 = offset + bytes slot.text := by
    rw [slot_bytes]
    omega
  rw [Rendering.write, Sink.holding_push]
  dsimp only
  rw [next]
  by_cases exceeds : capacity < bytes (t ++ slot.literal)
  · rw [if_pos ((Sink.holding_full _ _).2 exceeds)]
    exact .literalCut exceeds
  · rw [if_neg (exceeds ∘ (Sink.holding_full _ _).1)]
    cases filled : Rendering.fill strictness slot.body with
    | mk result events =>
        have given : outcome strictness slot.body = result := congrArg Prod.fst filled
        have logged : events = (Rendering.fill strictness slot.body).2 := (congrArg Prod.snd filled).symm
        rw [logged]
        cases result with
        | error cause =>
            have nothing : t ++ slot.literal = t ++ slot.output (outcome strictness) := by
              rw [Slot.output, given, shown, List.append_nil]
            dsimp only
            rw [nothing] at exceeds ⊢
            exact .failed cause given (Nat.le_of_not_lt exceeds)
        | ok text =>
            have given' : slot.literal ++ text = slot.output (outcome strictness) := by
              rw [Slot.output, given]
              rfl
            dsimp only
            rw [Sink.holding_push, List.append_assoc, given']
            by_cases beyond : capacity < bytes (t ++ slot.output (outcome strictness))
            · rw [if_pos ((Sink.holding_full _ _).2 beyond)]
              exact .valueCut text given beyond
            · rw [if_neg (beyond ∘ (Sink.holding_full _ _).1)]
              exact .whole text given (Nat.le_of_not_lt beyond)

-- The loop invariant: the sink holds what the slots behind gave, and the offset is where they end.
theorem write_cut (capacity : Nat) (slots : List Slot) (offset : Nat) (t : Text) :
    CutTo capacity (t ++ Layout.output strictness (outcome strictness) ⟨slots, trailing, unclosed⟩)
      (reportsFrom (outcome strictness) (unclosedReport trailing unclosed) slots offset t)
      (Rendering.write strictness (Rendering.close strictness trailing unclosed) slots offset
        (Sink.holding capacity t)) := by
  induction slots generalizing offset t with
  | nil => exact close_cut strictness trailing unclosed capacity t offset
  | cons slot rest hypothesis =>
      have step := write_slot strictness (Rendering.close strictness trailing unclosed) slot rest
        offset capacity t
      have whole : t ++ Layout.output strictness (outcome strictness)
          ⟨slot :: rest, trailing, unclosed⟩ = t ++ slot.output (outcome strictness) ++
            Layout.output strictness (outcome strictness) ⟨rest, trailing, unclosed⟩ := by
        simp [Layout.output]
      rw [whole]
      generalize Rendering.write strictness (Rendering.close strictness trailing unclosed)
        (slot :: rest) offset (Sink.holding capacity t) = r at step ⊢
      cases step with
      | literalCut exceeds =>
          rw [Slot.output, ← List.append_assoc t, List.append_assoc (t ++ slot.literal)]
          exact finish_cut_over _ _ _ _ offset exceeds
            (reports_past_literal trailing unclosed (outcome strictness) slot rest offset t)
      | failed cause fails fits =>
          have reached : bytes (t ++ slot.literal) ≤ capacity := by
            rwa [Slot.output, fails, shown, List.append_nil] at fits
          rw [reportsFrom, fails]
          exact cut_report _ _ ⟨t ++ slot.literal, _⟩ _ _ _ reached (hypothesis _ _)
      | valueCut text gives exceeds =>
          rw [reportsFrom, gives]
          exact cut_events _ _ _ _ _ (finish_cut_over _ _ _ _ offset exceeds
            (reports_later trailing unclosed (outcome strictness) rest _ _))
      | whole text gives fits =>
          rw [reportsFrom, gives]
          exact cut_events _ _ _ _ _ (hypothesis _ _)

end Write

theorem render_cut (settings : Settings) (s : Text) :
    CutTo settings.capacity
      ((Layout.ofText s).output settings.strictness (outcome settings.strictness))
      ((Layout.ofText s).reports (outcome settings.strictness)) (render settings s) := by
  unfold render
  rw [← Sink.holding_nil]
  exact write_cut settings.strictness (Layout.ofText s).trailing (Layout.ofText s).unclosed
    settings.capacity (Layout.ofText s).slots 0 []

theorem report_within (strictness : Strictness) (trailing : Text) (unclosed : Option Text)
    (outcome : Text → Except Cause Text) (slots : List Slot) (offset : Nat) (before : Text)
    (report : Report)
    (member : report ∈ reportsFrom outcome (unclosedReport trailing unclosed) slots offset before) :
    report.before <+: before ++ Layout.output strictness outcome ⟨slots, trailing, unclosed⟩ := by
  induction slots generalizing offset before with
  | nil =>
      cases unclosed with
      | none => cases member
      | some tail =>
          cases List.mem_singleton.1 member
          exact ⟨Layout.keptTail strictness (some tail), by simp [Layout.output]⟩
  | cons slot rest hypothesis =>
      rcases report_cases outcome _ slot rest offset before report member with ⟨cause, _, rfl⟩ | later
      · rw [Layout.output_cons]
        exact List.prefix_append _ _
      · simpa [Layout.output] using hypothesis _ _ later

theorem render_room (strictness : Strictness) (s : Text) (spare : Nat) :
    let output := (Layout.ofText s).output strictness (outcome strictness)
    let r := render ⟨bytes output + spare, strictness⟩ s
    r.text = output ∧
      r.issues = ((Layout.ofText s).reports (outcome strictness)).map Report.issue ∧
      r.truncated = false := by
  intro output r
  obtain ⟨text, truncated, offset, issues⟩ := render_cut ⟨bytes output + spare, strictness⟩ s
  have fits : ¬ bytes output + spare < bytes output := by omega
  refine ⟨?_, ?_, ?_⟩
  · exact text.trans (Text.clip_of_bytes_le _ _ (Nat.le_add_right _ spare))
  · rw [if_neg fits, List.append_nil, List.filter_eq_self.2] at issues
    · exact issues
    · intro report member
      have within := Text.bytes_prefix _ _
        (report_within strictness _ _ (outcome strictness) _ 0 [] report member)
      exact decide_eq_true (Nat.le_trans within (Nat.le_add_right _ spare))
  · exact truncated.trans (decide_eq_false fits)

-- A text has one layout and every body one outcome, and with room for it the rendering is what the
-- two spell.
theorem render_refines_layout (strictness : Strictness) (s : Text) :
    ∃ layout : Layout, (∀ other : Layout, other.Proper ∧ other.text = s ↔ other = layout) ∧
      ∃ outcome : Text → Except Cause Text,
        (∀ body result, Gives strictness body result ↔ outcome body = result) ∧
        ∀ spare,
          let output := layout.output strictness outcome
          let r := render ⟨bytes output + spare, strictness⟩ s
          r.text = output ∧ r.issues = (layout.reports outcome).map Report.issue ∧
            r.truncated = false :=
  ⟨Layout.ofText s, Layout.proper_layout_unique s, outcome strictness, gives_iff_outcome strictness,
    render_room strictness s⟩

end ArithTemplate
