import ArithTemplate.Proofs.Rendering.Cut

set_option autoImplicit false

open ArithTemplate.Text (bytes bytes_append)

namespace ArithTemplate

-- The same cause in a text that more bytes come in front of. A misfit keeps its position, which
-- counts from the start of its formula or pattern.
def Cause.moved (count : Nat) : Cause → Cause
  | .unclosed position => .unclosed (position + count)
  | cause => cause

def Issue.moved (count : Nat) (issue : Issue) : Issue :=
  ⟨issue.offset + count, issue.cause.moved count⟩

def Slot.failure (outcome : Text → Except Cause Text) (slot : Slot) (offset : Nat) (before : Text) :
    List Report :=
  match outcome slot.body with
  | .ok _ => []
  | .error cause => [⟨before ++ slot.literal, ⟨offset + bytes slot.literal, cause⟩⟩]

namespace Layout

-- The layout with more text in front that opens no placeholder.
def behind (front : Text) (layout : Layout) : Layout :=
  match layout.slots with
  | [] => { layout with trailing := front ++ layout.trailing }
  | slot :: rest => { layout with slots := ⟨front ++ slot.literal, slot.body⟩ :: rest }

-- What trails in the first layout comes to stand in front of the first brace of the second.
def joined (fore rest : Layout) : Layout := fore.slots.foldr following (rest.behind fore.trailing)

theorem joined_bare (trailing : Text) (unclosed : Option Text) (rest : Layout) :
    joined ⟨[], trailing, unclosed⟩ rest = rest.behind trailing := rfl

theorem joined_following (slot : Slot) (fore rest : Layout) :
    (following slot fore).joined rest = following slot (fore.joined rest) := rfl

-- Layouts are taken apart slot by slot, down to what follows the last one.
theorem slot_induction {motive : Layout → Prop}
    (bare : ∀ trailing unclosed, motive ⟨[], trailing, unclosed⟩)
    (following : ∀ slot layout, motive layout → motive (following slot layout))
    (layout : Layout) : motive layout := by
  obtain ⟨slots, trailing, unclosed⟩ := layout
  induction slots with
  | nil => exact bare trailing unclosed
  | cons slot rest hypothesis => exact following slot _ hypothesis

theorem behind_text (front : Text) (layout : Layout) :
    (layout.behind front).text = front ++ layout.text := by
  obtain ⟨slots, trailing, unclosed⟩ := layout
  cases slots with
  | nil => exact List.append_assoc front trailing (unclosedText unclosed)
  | cons slot rest => simp [behind, text, Slot.text]

theorem behind_proper (front : Text) (layout : Layout) (plain : '{' ∉ front)
    (proper : layout.Proper) : (layout.behind front).Proper := by
  obtain ⟨slots, trailing, unclosed⟩ := layout
  cases slots with
  | nil => exact ⟨nofun, nofun, List.not_mem_append plain proper.trailing, proper.unclosed⟩
  | cons slot rest =>
      have literal := List.not_mem_append plain (proper.literals slot List.mem_cons_self)
      have body := proper.bodies slot List.mem_cons_self
      exact following_proper ⟨front ++ slot.literal, slot.body⟩ ⟨rest, trailing, unclosed⟩ literal
        body (proper_rest slot rest trailing unclosed proper)

theorem joined_text (fore rest : Layout) (closed : fore.unclosed = none) :
    (fore.joined rest).text = fore.text ++ rest.text := by
  induction fore using slot_induction with
  | bare trailing unclosed =>
      obtain rfl : unclosed = none := closed
      rw [joined_bare, behind_text]
      simp [text, unclosedText]
  | following slot fore hypothesis =>
      rw [joined_following, following_text, following_text, hypothesis closed, List.append_assoc]

theorem joined_proper (fore rest : Layout) (left : fore.Proper) (right : rest.Proper) :
    (fore.joined rest).Proper := by
  induction fore using slot_induction with
  | bare trailing unclosed => exact behind_proper trailing rest left.trailing right
  | following slot fore hypothesis =>
      have literal := left.literals slot List.mem_cons_self
      have body := left.bodies slot List.mem_cons_self
      have later := hypothesis (proper_rest slot fore.slots fore.trailing fore.unclosed left)
      exact following_proper slot _ literal body later

theorem of_text_joined (a b : Text) (closed : (ofText a).unclosed = none) :
    ofText (a ++ b) = (ofText a).joined (ofText b) := by
  obtain ⟨left, leftText⟩ := of_text_proper a
  obtain ⟨right, rightText⟩ := of_text_proper b
  have spelled := joined_text (ofText a) (ofText b) closed
  rw [leftText, rightText] at spelled
  rw [← spelled]
  exact of_text_text _ (joined_proper _ _ left right)

section Output

variable (strictness : Strictness) (outcome : Text → Except Cause Text)

theorem behind_output (front : Text) (layout : Layout) :
    (layout.behind front).output strictness outcome = front ++ layout.output strictness outcome := by
  obtain ⟨slots, trailing, unclosed⟩ := layout
  cases slots with
  | nil => exact List.append_assoc front trailing (keptTail strictness unclosed)
  | cons slot rest => simp [behind, output, Slot.output]

theorem joined_output (fore rest : Layout) (closed : fore.unclosed = none) :
    (fore.joined rest).output strictness outcome =
      fore.output strictness outcome ++ rest.output strictness outcome := by
  induction fore using slot_induction with
  | bare trailing unclosed =>
      obtain rfl : unclosed = none := closed
      rw [joined_bare, behind_output]
      simp [output, kept_tail_none]
  | following slot fore hypothesis =>
      rw [joined_following, following_output, following_output, hypothesis closed, List.append_assoc]

end Output

section Reports

variable (outcome : Text → Except Cause Text)

def reportsAt (layout : Layout) (offset : Nat) (before : Text) : List Report :=
  reportsFrom outcome (unclosedReport layout.trailing layout.unclosed) layout.slots offset before

theorem following_reports (slot : Slot) (layout : Layout) (offset : Nat) (before : Text) :
    (following slot layout).reportsAt outcome offset before =
      slot.failure outcome offset before ++
        layout.reportsAt outcome (offset + bytes slot.text) (before ++ slot.output outcome) := by
  rw [reportsAt, following, reportsFrom, Slot.failure]
  cases outcome slot.body <;> rfl

theorem behind_reports (front : Text) (layout : Layout) (offset : Nat) (before : Text) :
    (layout.behind front).reportsAt outcome offset before =
      layout.reportsAt outcome (offset + bytes front) (before ++ front) := by
  obtain ⟨slots, trailing, unclosed⟩ := layout
  cases slots with
  | nil =>
      cases unclosed with
      | none => rfl
      | some tail =>
          simp [reportsAt, behind, reportsFrom, unclosedReport, bytes_append, Nat.add_assoc]
  | cons slot rest =>
      have first := following_reports outcome ⟨front ++ slot.literal, slot.body⟩
        ⟨rest, trailing, unclosed⟩ offset before
      have first' := following_reports outcome slot ⟨rest, trailing, unclosed⟩
        (offset + bytes front) (before ++ front)
      refine first.trans (Eq.trans ?_ first'.symm)
      simp [Slot.failure, Slot.text, Slot.output, bytes_append, Nat.add_assoc]

theorem joined_reports (strictness : Strictness) (fore rest : Layout) (closed : fore.unclosed = none)
    (offset : Nat) (before : Text) :
    (fore.joined rest).reportsAt outcome offset before =
      fore.reportsAt outcome offset before ++
        rest.reportsAt outcome (offset + bytes fore.text)
          (before ++ fore.output strictness outcome) := by
  induction fore using slot_induction generalizing offset before with
  | bare trailing unclosed =>
      obtain rfl : unclosed = none := closed
      rw [joined_bare, behind_reports]
      simp [reportsAt, reportsFrom, unclosedReport, text, unclosedText, output, kept_tail_none]
  | following slot fore hypothesis =>
      rw [joined_following, following_reports, following_reports, hypothesis closed, following_text,
        following_output, bytes_append]
      simp only [List.append_assoc, Nat.add_assoc]

section Moved

variable (placeless : ∀ body cause, outcome body = .error cause →
  ∀ count, cause.moved count = cause)

include placeless

theorem moved_failure (slot : Slot) (count offset : Nat) (before before' : Text) :
    (slot.failure outcome (offset + count) before).map Report.issue =
      ((slot.failure outcome offset before').map Report.issue).map (Issue.moved count) := by
  cases given : outcome slot.body with
  | ok text => simp [Slot.failure, given]
  | error cause =>
      simp [Slot.failure, given, Issue.moved, placeless _ _ given count, Nat.add_right_comm]

theorem moved_reports (layout : Layout) (count offset : Nat) (before before' : Text) :
    (layout.reportsAt outcome (offset + count) before).map Report.issue =
      ((layout.reportsAt outcome offset before').map Report.issue).map (Issue.moved count) := by
  induction layout using slot_induction generalizing offset before before' with
  | bare trailing unclosed =>
      cases unclosed with
      | none => rfl
      | some tail =>
          simp [reportsAt, reportsFrom, unclosedReport, Issue.moved, Cause.moved,
            Nat.add_right_comm]
  | following slot layout hypothesis =>
      have later := hypothesis (offset + bytes slot.text) (before ++ slot.output outcome)
        (before' ++ slot.output outcome)
      rw [following_reports, following_reports, List.map_append, List.map_append, List.map_append,
        moved_failure outcome placeless slot count offset before before', Nat.add_right_comm, later]

end Moved

theorem unclosed_reported (layout : Layout) (tail : Text) (opened : layout.unclosed = some tail)
    (offset : Nat) (before : Text) :
    ∃ report ∈ layout.reportsAt outcome offset before,
      ∃ position, report.issue.cause = .unclosed position := by
  induction layout using slot_induction generalizing offset before with
  | bare trailing unclosed =>
      obtain rfl : unclosed = some tail := opened
      exact ⟨_, List.mem_singleton.2 rfl, _, rfl⟩
  | following slot layout hypothesis =>
      obtain ⟨report, member, position, cause⟩ := hypothesis opened (offset + bytes slot.text)
        (before ++ slot.output outcome)
      rw [following_reports]
      exact ⟨report, List.mem_append_right _ member, position, cause⟩

end Reports

end Layout

theorem outcome_placeless (strictness : Strictness) (body : Text) (cause : Cause)
    (fails : outcome strictness body = .error cause) (count : Nat) : cause.moved count = cause := by
  rcases outcome_misfit strictness body cause fails with ⟨misfit, rfl⟩ | ⟨misfit, rfl⟩
  · rfl
  · rfl

theorem no_brace_open (strictness : Strictness) (s : Text)
    (closed : ∀ issue ∈ (unbounded strictness s).issues, ∀ position,
      issue.cause ≠ .unclosed position) : (Layout.ofText s).unclosed = none := by
  cases opened : (Layout.ofText s).unclosed with
  | none => rfl
  | some tail =>
      obtain ⟨report, member, position, cause⟩ :=
        Layout.unclosed_reported (outcome strictness) _ tail opened 0 []
      rw [unbounded_issues] at closed
      exact absurd cause (closed _ (List.mem_map_of_mem member) position)

section Unbounded

variable (strictness : Strictness) (a b : Text) (closed : (Layout.ofText a).unclosed = none)

include closed

theorem unbounded_text_append : (unbounded strictness (a ++ b)).text =
    (unbounded strictness a).text ++ (unbounded strictness b).text := by
  rw [unbounded_text, unbounded_text, unbounded_text, Layout.of_text_joined a b closed]
  exact Layout.joined_output strictness _ _ _ closed

theorem unbounded_issues_append : (unbounded strictness (a ++ b)).issues =
    (unbounded strictness a).issues ++
      (unbounded strictness b).issues.map (Issue.moved (bytes a)) := by
  have reports := Layout.joined_reports (outcome strictness) strictness _ (Layout.ofText b) closed 0 []
  have moved := Layout.moved_reports (outcome strictness) (outcome_placeless strictness)
    (Layout.ofText b) (bytes a) 0
  rw [unbounded_issues, unbounded_issues, unbounded_issues, Layout.of_text_joined a b closed]
  rw [(Layout.of_text_proper a).2] at reports
  calc
    (((Layout.ofText a).joined (Layout.ofText b)).reports (outcome strictness)).map Report.issue =
        ((Layout.ofText a).reports (outcome strictness) ++
          (Layout.ofText b).reportsAt (outcome strictness) (0 + bytes a)
            ([] ++ (Layout.ofText a).output strictness (outcome strictness))).map Report.issue :=
      congrArg (List.map Report.issue) reports
    _ = ((Layout.ofText a).reports (outcome strictness)).map Report.issue ++
        (((Layout.ofText b).reports (outcome strictness)).map Report.issue).map
          (Issue.moved (bytes a)) := by
      rw [List.map_append, moved _ []]
      rfl

end Unbounded

-- A text is rendered alike whatever stands in front of it, if that leaves no brace open, and so is
-- what stands in front. Only the places of issues count from the start of the whole.
theorem render_append (strictness : Strictness) (a b : Text)
    (closed : ∀ issue ∈ (unbounded strictness a).issues, ∀ position,
      issue.cause ≠ .unclosed position) (spare : Nat) :
    let r := render ⟨bytes (unbounded strictness (a ++ b)).text + spare, strictness⟩
    (r (a ++ b)).text = (r a).text ++ (r b).text ∧
      (r (a ++ b)).issues = (r a).issues ++ (r b).issues.map (Issue.moved (bytes a)) ∧
      (r a).truncated = false ∧ (r b).truncated = false ∧ (r (a ++ b)).truncated = false := by
  intro r
  have ends := no_brace_open strictness a closed
  have text := unbounded_text_append strictness a b ends
  have size := congrArg bytes text
  rw [bytes_append] at size
  have both : r (a ++ b) = unbounded strictness (a ++ b) := unbounded_room strictness (a ++ b) spare
  have first : r a = unbounded strictness a := by
    have room := unbounded_room strictness a (bytes (unbounded strictness b).text + spare)
    rwa [← Nat.add_assoc, ← size] at room
  have second : r b = unbounded strictness b := by
    have room := unbounded_room strictness b (bytes (unbounded strictness a).text + spare)
    rwa [← Nat.add_assoc, Nat.add_comm (bytes _) (bytes _), ← size] at room
  rw [both, first, second]
  exact ⟨text, unbounded_issues_append strictness a b ends, unbounded_whole strictness a,
    unbounded_whole strictness b, unbounded_whole strictness (a ++ b)⟩

-- A placeholder that fails and one that is not closed. The misfit is at the start of its formula
-- wherever the placeholder stands, and the open brace moves on.
theorem failing_then_open :
    let a := ['é', '{', '}']
    let b := ['{', '1']
    (∀ issue ∈ (unbounded .strict a).issues, ∀ position, issue.cause ≠ .unclosed position) ∧
      (render ⟨4, .strict⟩ (a ++ b)).text = ['é', '{', '1'] ∧
      (render ⟨4, .strict⟩ (a ++ b)).issues =
        [⟨2, .formula ⟨.operandMissing none, 0⟩⟩, ⟨4, .unclosed 4⟩] := by
  intro a b
  have failing : (unbounded .strict a).issues = [⟨2, .formula ⟨.operandMissing none, 0⟩⟩] := by
    decide +kernel
  have closed : ∀ issue ∈ (unbounded .strict a).issues, ∀ position,
      issue.cause ≠ .unclosed position := by
    rw [failing]
    exact List.forall_mem_singleton.2 nofun
  have whole := render_append .strict a b closed 0
  rw [show bytes (unbounded .strict (a ++ b)).text + 0 = 4 by decide +kernel] at whole
  obtain ⟨text, issues, _⟩ := whole
  exact ⟨closed, text.trans (by decide +kernel), issues.trans (by decide +kernel)⟩

end ArithTemplate
