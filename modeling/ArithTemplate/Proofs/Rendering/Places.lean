import ArithTemplate.Proofs.Rendering.Joined

set_option autoImplicit false

open ArithTemplate.Text (bytes bytes_append)

namespace ArithTemplate

namespace Layout

section Reports

variable (outcome : Text → Except Cause Text)

theorem reports_between (layout : Layout) (offset : Nat) (before : Text) (report : Report)
    (member : report ∈ layout.reportsAt outcome offset before) :
    offset ≤ report.issue.offset ∧ report.issue.offset < offset + bytes layout.text := by
  induction layout using slot_induction generalizing offset before with
  | bare trailing unclosed =>
      cases unclosed with
      | none => cases member
      | some tail =>
          cases List.mem_singleton.1 member
          have brace : bytes (trailing ++ '{' :: tail) = bytes trailing + (1 + bytes tail) :=
            bytes_append trailing _
          simp only [text, unclosedText, List.flatMap_nil, List.nil_append, brace]
          omega
  | following slot layout hypothesis =>
      have size := slot_bytes slot
      rw [following_text, bytes_append]
      rcases report_cases outcome _ slot layout.slots offset before report member with
        ⟨cause, _, rfl⟩ | later
      · dsimp only
        omega
      · obtain ⟨low, high⟩ := hypothesis _ _ later
        omega

theorem reports_ordered (layout : Layout) (offset : Nat) (before : Text) :
    (layout.reportsAt outcome offset before).Pairwise fun a b => a.issue.offset < b.issue.offset := by
  induction layout using slot_induction generalizing offset before with
  | bare trailing unclosed =>
      cases unclosed with
      | none => exact List.Pairwise.nil
      | some tail => exact List.pairwise_singleton _ _
  | following slot layout hypothesis =>
      rw [following_reports, List.pairwise_append]
      refine ⟨?_, hypothesis _ _, ?_⟩
      · rw [Slot.failure]
        cases outcome slot.body with
        | ok text => exact List.Pairwise.nil
        | error cause => exact List.pairwise_singleton _ _
      · intro first here second later
        have low := (reports_between outcome layout _ _ second later).1
        have size := slot_bytes slot
        have place : first.issue.offset = offset + bytes slot.literal := by
          rw [Slot.failure] at here
          cases given : outcome slot.body with
          | ok text =>
              rw [given] at here
              cases here
          | error cause =>
              rw [given] at here
              cases List.mem_singleton.1 here
              rfl
        omega

theorem reports_past_output (slot : Slot) (layout : Layout) (offset : Nat) (before : Text)
    (report : Report) (member : report ∈ (following slot layout).reportsAt outcome offset before) :
    before ++ slot.output outcome <+: report.before := by
  rcases report_cases outcome _ slot layout.slots offset before report member with
    ⟨cause, fails, rfl⟩ | later
  · have nothing : slot.output outcome = slot.literal := by
      rw [Slot.output, fails, shown, List.append_nil]
    exact nothing ▸ List.prefix_refl _
  · exact reports_later _ _ outcome layout.slots _ _ report later

end Reports

theorem behind_nothing (layout : Layout) : layout.behind [] = layout := by
  obtain ⟨slots, trailing, unclosed⟩ := layout
  cases slots <;> rfl

theorem foldr_reports (strictness : Strictness) (outcome : Text → Except Cause Text)
    (done : List Slot) (rest : Layout) (offset : Nat) (before : Text) :
    (done.foldr following rest).reportsAt outcome offset before =
      Layout.reportsAt outcome ⟨done, [], none⟩ offset before ++
        rest.reportsAt outcome (offset + bytes (done.flatMap Slot.text))
          (before ++ done.flatMap (Slot.output outcome)) := by
  have split := joined_reports outcome strictness ⟨done, [], none⟩ rest rfl offset before
  rw [joined, behind_nothing] at split
  simpa only [text, unclosedText, output, kept_tail_none, List.append_nil] using split

-- What the front of a layout gives: the first placeholder with the text before it or, where there
-- is no placeholder, all that is left.
def firstPart (strictness : Strictness) (outcome : Text → Except Cause Text) (layout : Layout) :
    Text :=
  match layout.slots with
  | [] => layout.trailing ++ keptTail strictness layout.unclosed
  | slot :: _ => slot.output outcome

-- The placeholders that are written whole before the capacity runs out, and the layout behind them.
structure CutBehind (settings : Settings) (before : Text) (layout : Layout) (done : List Slot)
    (rest : Layout) : Prop where
  split : layout = done.foldr following rest
  fits : bytes (before ++ done.flatMap (Slot.output (outcome settings.strictness))) ≤
    settings.capacity
  exceeds : settings.capacity < bytes (before ++
    done.flatMap (Slot.output (outcome settings.strictness)) ++
      rest.firstPart settings.strictness (outcome settings.strictness))

theorem cut_at_once (settings : Settings) (before : Text) (layout : Layout)
    (fits : bytes before ≤ settings.capacity)
    (exceeds : settings.capacity <
      bytes (before ++ layout.firstPart settings.strictness (outcome settings.strictness))) :
    CutBehind settings before layout [] layout := by
  refine ⟨rfl, ?_, ?_⟩
  · rwa [List.flatMap_nil, List.append_nil]
  · rwa [List.flatMap_nil, List.append_nil]

theorem cut_further (settings : Settings) (before : Text) (slot : Slot) (layout rest : Layout)
    (done : List Slot)
    (cut : CutBehind settings (before ++ slot.output (outcome settings.strictness)) layout done rest) :
    CutBehind settings before (following slot layout) (slot :: done) rest := by
  obtain ⟨rfl, fits, exceeds⟩ := cut
  refine ⟨rfl, ?_, ?_⟩
  · rwa [List.flatMap_cons, ← List.append_assoc]
  · rwa [List.flatMap_cons, ← List.append_assoc before]

end Layout

section Write

variable (settings : Settings) (trailing : Text) (unclosed : Option Text)

-- The place of an issue about the capacity is where the placeholders written whole end.
def PlacedBehind (offset : Nat) (before : Text) (layout : Layout) (issue : Issue) : Prop :=
  ∀ capacity, issue.cause = .overflow capacity →
    ∃ done rest, layout.CutBehind settings before done rest ∧
      issue.offset = offset + bytes (done.flatMap Slot.text)

theorem finish_placed (t more : Text) (offset : Nat) (layout : Layout)
    (fits : bytes t ≤ settings.capacity)
    (front : more <+: layout.firstPart settings.strictness (outcome settings.strictness)) :
    ∀ issue ∈ (Rendering.finish (Sink.holding settings.capacity (t ++ more)) offset).issues,
      PlacedBehind settings offset t layout issue := by
  intro issue member capacity _
  rw [Rendering.finish] at member
  by_cases exceeds : settings.capacity < bytes (t ++ more)
  · rw [if_pos ((Sink.holding_full _ _).2 exceeds)] at member
    cases List.mem_singleton.1 member
    have longer := Text.bytes_prefix _ _ ((List.prefix_append_right_inj t).2 front)
    exact ⟨[], layout, Layout.cut_at_once settings t layout fits (Nat.lt_of_lt_of_le exceeds longer),
      rfl⟩
  · rw [if_neg (exceeds ∘ (Sink.holding_full _ _).1)] at member
    cases member

theorem after_placed (r : Rendering) (issues : List Issue) (events : List Event) (offset : Nat)
    (before : Text) (layout : Layout)
    (others : ∀ issue ∈ issues, ∀ capacity, issue.cause ≠ .overflow capacity)
    (placed : ∀ issue ∈ r.issues, PlacedBehind settings offset before layout issue) :
    ∀ issue ∈ (r.after issues events).issues, PlacedBehind settings offset before layout issue := by
  intro issue member
  rcases List.mem_append.1 member with early | later
  · intro capacity overflows
    exact absurd overflows (others issue early capacity)
  · exact placed issue later

theorem next_placed (offset : Nat) (before : Text) (slot : Slot) (layout : Layout) (issue : Issue)
    (placed : PlacedBehind settings (offset + bytes slot.text)
      (before ++ slot.output (outcome settings.strictness)) layout issue) :
    PlacedBehind settings offset before (Layout.following slot layout) issue := by
  intro capacity overflows
  obtain ⟨done, rest, cut, place⟩ := placed capacity overflows
  refine ⟨slot :: done, rest, Layout.cut_further settings before slot layout rest done cut, ?_⟩
  rw [place, List.flatMap_cons, bytes_append, Nat.add_assoc]

theorem close_placed (t : Text) (offset : Nat) (fits : bytes t ≤ settings.capacity) :
    ∀ issue ∈ (Rendering.close settings.strictness trailing unclosed offset
        (Sink.holding settings.capacity t)).issues,
      PlacedBehind settings offset t ⟨[], trailing, unclosed⟩ issue := by
  have literal : trailing <+: Layout.firstPart settings.strictness (outcome settings.strictness)
      ⟨[], trailing, unclosed⟩ := List.prefix_append trailing _
  have stopped := finish_placed settings t trailing offset _ fits literal
  unfold Rendering.close
  rw [Sink.holding_push]
  cases unclosed with
  | none => exact stopped
  | some tail =>
      by_cases exceeds : settings.capacity < bytes (t ++ trailing)
      · simp only [Sink.holding_full, if_pos exceeds]
        exact stopped
      · simp only [Sink.holding_full, if_neg exceeds]
        apply after_placed
        · exact List.forall_mem_singleton.2 nofun
        · cases strict : settings.strictness with
          | strict =>
              rw [Sink.holding_push, List.append_assoc]
              refine finish_placed settings t _ offset _ fits ?_
              rw [strict]
              exact List.prefix_refl _
          | lenient => exact stopped

theorem write_placed (slots : List Slot) (offset : Nat) (t : Text)
    (fits : bytes t ≤ settings.capacity) :
    ∀ issue ∈ (Rendering.write settings.strictness
        (Rendering.close settings.strictness trailing unclosed) slots offset
        (Sink.holding settings.capacity t)).issues,
      PlacedBehind settings offset t ⟨slots, trailing, unclosed⟩ issue := by
  induction slots generalizing offset t with
  | nil => exact close_placed settings trailing unclosed t offset fits
  | cons slot rest hypothesis =>
      have step := write_slot settings.strictness
        (Rendering.close settings.strictness trailing unclosed) slot rest offset settings.capacity t
      have front : Layout.firstPart settings.strictness (outcome settings.strictness)
          ⟨slot :: rest, trailing, unclosed⟩ = slot.output (outcome settings.strictness) := rfl
      have behind (r : Rendering) (placed : ∀ issue ∈ r.issues,
          PlacedBehind settings (offset + bytes slot.text)
            (t ++ slot.output (outcome settings.strictness)) ⟨rest, trailing, unclosed⟩ issue) :
          ∀ issue ∈ r.issues, PlacedBehind settings offset t ⟨slot :: rest, trailing, unclosed⟩ issue :=
        fun issue member => next_placed settings offset t slot _ issue (placed issue member)
      generalize Rendering.write settings.strictness
        (Rendering.close settings.strictness trailing unclosed) (slot :: rest) offset
        (Sink.holding settings.capacity t) = r at step ⊢
      cases step with
      | literalCut exceeds =>
          refine finish_placed settings t slot.literal offset _ fits ?_
          rw [front]
          exact List.prefix_append slot.literal _
      | failed cause fails reached =>
          apply after_placed
          · exact List.forall_mem_singleton.2
              (outcome_not_overflow settings.strictness slot.body cause fails)
          · exact behind _ (hypothesis _ _ reached)
      | valueCut text gives exceeds =>
          apply after_placed settings _ _ _ _ _ _ (List.forall_mem_nil _)
          exact finish_placed settings t _ offset _ fits (List.prefix_refl _)
      | whole text gives reached =>
          apply after_placed settings _ _ _ _ _ _ (List.forall_mem_nil _)
          exact behind _ (hypothesis _ _ reached)

end Write

theorem render_placed (settings : Settings) (s : Text) :
    ∀ issue ∈ (render settings s).issues, PlacedBehind settings 0 [] (Layout.ofText s) issue := by
  unfold render
  rw [← Sink.holding_nil]
  exact write_placed settings (Layout.ofText s).trailing (Layout.ofText s).unclosed
    (Layout.ofText s).slots 0 [] (Nat.zero_le _)

theorem outcome_not_unclosed (strictness : Strictness) (body : Text) (cause : Cause)
    (fails : outcome strictness body = .error cause) (position : Nat) :
    cause ≠ .unclosed position := by
  rcases outcome_misfit strictness body cause fails with ⟨misfit, rfl⟩ | ⟨misfit, rfl⟩
  · exact nofun
  · exact nofun

theorem reports_not_unclosed (strictness : Strictness) (slots : List Slot) (trailing : Text)
    (offset : Nat) (before : Text) (report : Report)
    (member : report ∈ Layout.reportsAt (outcome strictness) ⟨slots, trailing, none⟩ offset before)
    (position : Nat) : report.issue.cause ≠ .unclosed position := by
  induction slots generalizing offset before with
  | nil => cases member
  | cons slot rest hypothesis =>
      rcases report_cases _ _ slot rest offset before report member with ⟨cause, fails, rfl⟩ | later
      · exact outcome_not_unclosed strictness slot.body cause fails position
      · exact hypothesis _ _ later

theorem foldr_trailing (done : List Slot) (rest : Layout) :
    (done.foldr Layout.following rest).trailing = rest.trailing := by
  induction done with
  | nil => rfl
  | cons slot done hypothesis => exact hypothesis

-- Reports of the part that is cut and of what comes behind it are not kept, but for the one about a
-- brace that stays open, which is made before the text behind the brace is written.
theorem kept_before_cut (settings : Settings) (before : Text) (layout rest : Layout)
    (done : List Slot) (offset : Nat) (cut : layout.CutBehind settings before done rest)
    (report : Report) (fits : bytes report.before ≤ settings.capacity)
    (member : report ∈ layout.reportsAt (outcome settings.strictness) offset before) :
    let place := offset + bytes (done.flatMap Slot.text)
    (report.issue.offset < place ∧ ∀ position, report.issue.cause ≠ .unclosed position) ∨
      report.issue.offset = place + bytes layout.trailing ∧
        ∃ position, report.issue.cause = .unclosed position := by
  intro place
  obtain ⟨rfl, _, exceeds⟩ := cut
  rw [foldr_trailing]
  rw [Layout.foldr_reports settings.strictness] at member
  rcases List.mem_append.1 member with early | later
  · left
    have high := (Layout.reports_between (outcome settings.strictness) _ _ _ report early).2
    rw [show Layout.text ⟨done, [], none⟩ = done.flatMap Slot.text from List.append_nil _] at high
    exact ⟨high, reports_not_unclosed settings.strictness done [] offset before report early⟩
  · right
    obtain ⟨slots, trailing, unclosed⟩ := rest
    cases slots with
    | nil =>
        cases unclosed with
        | none => cases later
        | some tail =>
            cases List.mem_singleton.1 later
            exact ⟨rfl, _, rfl⟩
    | cons slot slots =>
        have beyond := Text.bytes_prefix _ _ (Layout.reports_past_output (outcome settings.strictness)
          slot ⟨slots, trailing, unclosed⟩ _ _ report later)
        have first : Layout.firstPart settings.strictness (outcome settings.strictness)
            ⟨slot :: slots, trailing, unclosed⟩ = slot.output (outcome settings.strictness) := rfl
        rw [first] at exceeds
        omega

-- The issues of placeholders that a rendering gets to before its capacity runs out.
def keptIssues (settings : Settings) (s : Text) : List Issue :=
  (((Layout.ofText s).reports (outcome settings.strictness)).filter fun report =>
    decide (bytes report.before ≤ settings.capacity)).map Report.issue

theorem kept_issue_report (settings : Settings) (s : Text) (issue : Issue)
    (member : issue ∈ keptIssues settings s) :
    ∃ report, report ∈ (Layout.ofText s).reports (outcome settings.strictness) ∧
      bytes report.before ≤ settings.capacity ∧ report.issue = issue := by
  obtain ⟨report, kept, same⟩ := List.mem_map.1 member
  obtain ⟨member, fits⟩ := List.mem_filter.1 kept
  exact ⟨report, member, of_decide_eq_true fits, same⟩

theorem kept_issues_ordered (settings : Settings) (s : Text) :
    (keptIssues settings s).Pairwise fun a b => a.offset < b.offset :=
  ((Layout.reports_ordered (outcome settings.strictness) (Layout.ofText s) 0 []).filter _).map
    Report.issue fun _ _ less => less

theorem kept_issue_located (settings : Settings) (s : Text) (issue : Issue)
    (member : issue ∈ keptIssues settings s) :
    (∃ fore inside, s = fore ++ '{' :: inside ∧ issue.offset = bytes fore) ∧
      ∀ capacity, issue.cause ≠ .overflow capacity := by
  obtain ⟨report, reported, _, rfl⟩ := kept_issue_report settings s issue member
  obtain ⟨size, ⟨inside, whole⟩, cause, _⟩ := report_located settings.strictness s report reported
  exact ⟨⟨_, inside, whole, size.symm⟩, cause⟩

theorem kept_issue_behind_cut (settings : Settings) (s : Text) (done : List Slot) (rest : Layout)
    (cut : (Layout.ofText s).CutBehind settings [] done rest) (issue : Issue)
    (member : issue ∈ keptIssues settings s) :
    bytes (done.flatMap Slot.text) < issue.offset ↔
      (Layout.ofText s).trailing ≠ [] ∧ ∃ position, issue.cause = .unclosed position := by
  obtain ⟨report, reported, fits, rfl⟩ := kept_issue_report settings s issue member
  have places := kept_before_cut settings [] _ rest done 0 cut report fits reported
  dsimp only at places
  rw [Nat.zero_add] at places
  rcases places with ⟨before, other⟩ | ⟨behind, position, cause⟩
  · constructor
    · intro later
      omega
    · intro ⟨_, position, cause⟩
      exact absurd cause (other position)
  · rw [behind, cause]
    cases (Layout.ofText s).trailing with
    | nil => simp [bytes]
    | cons c more =>
        have wide := c.utf8Size_pos
        refine ⟨fun _ => ⟨List.cons_ne_nil c more, position, rfl⟩, fun _ => ?_⟩
        rw [bytes]
        omega

-- Issues of placeholders are at their braces, in the order of the text. The issue about the capacity
-- comes last and is where the placeholders written whole end, at or before the brace of the one that
-- is cut. So it is out of order behind a brace that stays open, if there is text between the two.
theorem issues_placed (settings : Settings) (s : Text) :
    let layout := Layout.ofText s
    let r := render settings s
    ∃ kept : List Issue,
      kept.Pairwise (fun a b => a.offset < b.offset) ∧
      (∀ issue ∈ kept, (∃ fore inside, s = fore ++ '{' :: inside ∧ issue.offset = bytes fore) ∧
        ∀ capacity, issue.cause ≠ .overflow capacity) ∧
      (r.truncated = false → r.issues = kept) ∧
      (r.truncated = true → ∃ done rest, layout.CutBehind settings [] done rest ∧
        let place := bytes (done.flatMap Slot.text)
        r.issues = kept ++ [⟨place, .overflow settings.capacity⟩] ∧
        ∀ issue ∈ kept, place < issue.offset ↔
          layout.trailing ≠ [] ∧ ∃ position, issue.cause = .unclosed position) := by
  intro layout r
  obtain ⟨_, truncated, offset, issues⟩ := render_cut settings s
  refine ⟨keptIssues settings s, kept_issues_ordered settings s, kept_issue_located settings s, ?_, ?_⟩
  · intro uncut
    have fits := of_decide_eq_false (truncated.symm.trans uncut)
    rw [if_neg fits, List.append_nil] at issues
    exact issues
  · intro isCut
    have exceeds := of_decide_eq_true (truncated.symm.trans isCut)
    rw [if_pos exceeds] at issues
    have last : ⟨offset, .overflow settings.capacity⟩ ∈ r.issues := by
      rw [issues]
      exact List.mem_append_right _ (List.mem_singleton.2 rfl)
    obtain ⟨done, rest, cut, place⟩ := render_placed settings s _ last settings.capacity rfl
    rw [Nat.zero_add] at place
    dsimp only at place
    refine ⟨done, rest, cut, ?_, kept_issue_behind_cut settings s done rest cut⟩
    rw [issues, place]
    rfl

-- Two bytes of text stand in front of the brace whose tail is cut, and of the product whose value is.
theorem cut_behind_literal_text :
    (render ⟨3, .strict⟩ ['a', 'b', '{', '1']).issues = [⟨2, .unclosed 2⟩, ⟨0, .overflow 3⟩] ∧
      ¬ (render ⟨3, .strict⟩ ['a', 'b', '{', '1']).issues.Pairwise (fun a b => a.offset ≤ b.offset) ∧
      (Layout.ofText ['a', 'b', '{', '9', '*', '9', '}']).slots = [⟨['a', 'b'], ['9', '*', '9']⟩] ∧
      (render ⟨3, .strict⟩ ['a', 'b', '{', '9', '*', '9', '}']).text = ['a', 'b', '8'] ∧
      (render ⟨3, .strict⟩ ['a', 'b', '{', '9', '*', '9', '}']).issues = [⟨0, .overflow 3⟩] := by
  decide +kernel

end ArithTemplate
