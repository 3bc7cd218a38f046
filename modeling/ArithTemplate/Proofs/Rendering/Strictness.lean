import ArithTemplate.Proofs.Lenient.Extending
import ArithTemplate.Proofs.Rendering.Joined

set_option autoImplicit false

open ArithTemplate.Text (bytes bytes_append)

namespace ArithTemplate

theorem fill_keeps (body text : Text) (events : List Event)
    (filled : Rendering.fill .strict body = (.ok text, events)) :
    Rendering.fill .lenient body = (.ok text, events) := by
  unfold Rendering.fill at filled ⊢
  cases strict : Formula.read .strict (Placeholder.ofBody body).formula with
  | error misfit => simp [strict] at filled
  | ok reading =>
      have lenient := Formula.read_extends _ reading strict
      simp only [strict] at filled
      simpa only [lenient] using filled

theorem outcome_keeps (body text : Text) (gives : outcome .strict body = .ok text) :
    outcome .lenient body = .ok text := by
  have filled : Rendering.fill .strict body = (.ok text, (Rendering.fill .strict body).2) :=
    Prod.ext gives rfl
  exact congrArg Prod.fst (fill_keeps body text _ filled)

-- Nothing went wrong but, perhaps, the capacity.
def OnlyCut (issues : List Issue) : Prop :=
  ∀ issue ∈ issues, ∃ capacity, issue.cause = .overflow capacity

theorem only_cut_behind (first later : List Issue) (only : OnlyCut (first ++ later)) :
    OnlyCut later :=
  fun issue member => only issue (List.mem_append_right first member)

section Agree

variable (trailing : Text) (unclosed : Option Text)

theorem close_agrees (offset : Nat) (sink : Sink)
    (only : OnlyCut (Rendering.close .strict trailing unclosed offset sink).issues) :
    Rendering.close .lenient trailing unclosed offset sink =
      Rendering.close .strict trailing unclosed offset sink := by
  unfold Rendering.close at only ⊢
  cases unclosed with
  | none => rfl
  | some tail =>
      by_cases full : (sink.push trailing).full = true
      · simp only [if_pos full]
      · simp only [if_neg full] at only
        obtain ⟨capacity, absurd⟩ := only _ List.mem_cons_self
        cases absurd

-- As long as the strict run meets no failure, both runs write the same into the same sink.
theorem write_agrees (slots : List Slot) (offset : Nat) (sink : Sink)
    (only : OnlyCut (Rendering.write .strict (Rendering.close .strict trailing unclosed) slots offset
      sink).issues) :
    Rendering.write .lenient (Rendering.close .lenient trailing unclosed) slots offset sink =
      Rendering.write .strict (Rendering.close .strict trailing unclosed) slots offset sink := by
  induction slots generalizing offset sink with
  | nil => exact close_agrees trailing unclosed offset sink only
  | cons slot rest hypothesis =>
      rw [Rendering.write] at only ⊢
      rw [Rendering.write]
      by_cases full : (sink.push slot.literal).full = true
      · simp only [if_pos full]
      · simp only [if_neg full] at only ⊢
        cases filled : Rendering.fill .strict slot.body with
        | mk result events =>
            simp only [filled] at only
            cases result with
            | error cause =>
                have fails : outcome .strict slot.body = .error cause := congrArg Prod.fst filled
                obtain ⟨capacity, overflow⟩ := only _ List.mem_cons_self
                exact absurd overflow (outcome_not_overflow .strict slot.body cause fails capacity)
            | ok text =>
                simp only [fill_keeps slot.body text events filled]
                by_cases cut : ((sink.push slot.literal).push text).full = true
                · simp only [if_pos cut]
                · simp only [if_neg cut] at only ⊢
                  rw [hypothesis _ _ (only_cut_behind [] _ only)]

end Agree

theorem render_agrees (capacity : Nat) (s : Text)
    (only : OnlyCut (render ⟨capacity, .strict⟩ s).issues) :
    render ⟨capacity, .lenient⟩ s = render ⟨capacity, .strict⟩ s :=
  write_agrees _ _ _ 0 _ only

section Reports

variable (last : Nat → Text → List Report)

theorem report_kept (outcome : Text → Except Cause Text) (slot : Slot) (rest : List Slot)
    (offset : Nat) (before : Text) (report : Report)
    (member : report ∈ reportsFrom outcome last rest (offset + bytes slot.text)
      (before ++ slot.output outcome)) :
    report ∈ reportsFrom outcome last (slot :: rest) offset before := by
  rw [reportsFrom]
  cases outcome slot.body with
  | ok text => exact member
  | error cause => exact List.mem_cons_of_mem _ member

theorem failure_reported (outcome : Text → Except Cause Text) (slot : Slot) (rest : List Slot)
    (offset : Nat) (before : Text) (cause : Cause) (fails : outcome slot.body = .error cause) :
    ⟨before ++ slot.literal, ⟨offset + bytes slot.literal, cause⟩⟩ ∈
      reportsFrom outcome last (slot :: rest) offset before := by
  rw [reportsFrom]
  simp only [fails]
  exact List.mem_cons_self

-- Where the narrow outcome gives a text so does the wide one, so the wide one fails at fewer places.
theorem report_offsets (trailing : Text) (unclosed : Option Text)
    (wide narrow : Text → Except Cause Text)
    (keeps : ∀ body text, narrow body = .ok text → wide body = .ok text) (slots : List Slot)
    (offset : Nat) (before before' : Text) (report : Report)
    (member : report ∈ reportsFrom wide (unclosedReport trailing unclosed) slots offset before) :
    ∃ other ∈ reportsFrom narrow (unclosedReport trailing unclosed) slots offset before',
      other.issue.offset = report.issue.offset := by
  induction slots generalizing offset before before' with
  | nil =>
      cases unclosed with
      | none => cases member
      | some tail =>
          cases List.mem_singleton.1 member
          exact ⟨_, List.mem_singleton.2 rfl, rfl⟩
  | cons slot rest hypothesis =>
      rcases report_cases wide _ slot rest offset before report member with ⟨cause, fails, rfl⟩ | later
      · cases given : narrow slot.body with
        | ok text =>
            rw [keeps _ _ given] at fails
            cases fails
        | error cause' =>
            exact ⟨_, failure_reported _ narrow slot rest offset before' cause' given, rfl⟩
      · obtain ⟨other, found, same⟩ :=
          hypothesis _ _ (before' ++ slot.output narrow) later
        exact ⟨other, report_kept _ narrow slot rest offset before' other found, same⟩

end Reports

theorem lenient_offsets (s : Text) (issue : Issue) (member : issue ∈ (unbounded .lenient s).issues) :
    ∃ other ∈ (unbounded .strict s).issues, other.offset = issue.offset := by
  rw [unbounded_issues] at member ⊢
  obtain ⟨report, inReports, rfl⟩ := List.mem_map.1 member
  obtain ⟨other, found, same⟩ := report_offsets _ _ (outcome .lenient) (outcome .strict)
    outcome_keeps _ 0 [] [] report inReports
  exact ⟨other.issue, List.mem_map_of_mem found, same⟩

theorem of_text_placeholder (body rest : Text) (closing : '}' ∉ body) :
    Layout.ofText ('{' :: (body ++ '}' :: rest)) =
      Layout.following ⟨[], body⟩ (Layout.ofText rest) := by
  have shape : '{' :: (body ++ '}' :: rest) = Slot.text ⟨[], body⟩ ++ rest := by simp [Slot.text]
  rw [shape]
  exact Layout.of_text_slot ⟨[], body⟩ rest List.not_mem_nil closing

theorem unbounded_around (strictness : Strictness) (fore body rest : Text)
    (closed : (Layout.ofText fore).unclosed = none) (closing : '}' ∉ body) :
    (unbounded strictness (fore ++ '{' :: (body ++ '}' :: rest))).text =
      (unbounded strictness fore).text ++
        (shown (outcome strictness body) ++ (unbounded strictness rest).text) := by
  rw [unbounded_text_append strictness fore _ closed]
  refine congrArg ((unbounded strictness fore).text ++ ·) ?_
  rw [unbounded_text, unbounded_text, of_text_placeholder body rest closing]
  exact Layout.following_output strictness _ ⟨[], body⟩ _

-- A placeholder that no issue is about gave a text.
theorem silent_gives (strictness : Strictness) (fore body rest : Text)
    (closed : (Layout.ofText fore).unclosed = none) (closing : '}' ∉ body)
    (silent : ∀ issue ∈ (unbounded strictness (fore ++ '{' :: (body ++ '}' :: rest))).issues,
      issue.offset ≠ bytes fore) :
    ∃ text, outcome strictness body = .ok text := by
  cases given : outcome strictness body with
  | ok text => exact ⟨text, rfl⟩
  | error cause =>
      have first : ⟨0, cause⟩ ∈ (unbounded strictness ('{' :: (body ++ '}' :: rest))).issues := by
        rw [unbounded_issues, of_text_placeholder body rest closing]
        exact List.mem_map_of_mem (failure_reported _ _ ⟨[], body⟩ _ 0 [] cause given)
      have moved := List.mem_append_right (unbounded strictness fore).issues
        (List.mem_map_of_mem (f := Issue.moved (bytes fore)) first)
      rw [← unbounded_issues_append strictness fore _ closed] at moved
      exact absurd (Nat.zero_add (bytes fore)) (silent _ moved)

-- Lenient rendering leaves alone what strict rendering can do: a text without failures is rendered
-- alike, and of any other the failures are no more and each text that was given stays.
theorem lenient_rendering_keeps_strict (s : Text) :
    (∀ capacity,
      (∀ issue ∈ (render ⟨capacity, .strict⟩ s).issues, ∃ limit, issue.cause = .overflow limit) →
        render ⟨capacity, .lenient⟩ s = render ⟨capacity, .strict⟩ s) ∧
      (∀ issue ∈ (unbounded .lenient s).issues,
        ∃ other ∈ (unbounded .strict s).issues, other.offset = issue.offset) ∧
      ∀ fore body rest, s = fore ++ '{' :: (body ++ '}' :: rest) →
        (Layout.ofText fore).unclosed = none → '}' ∉ body →
        (∀ issue ∈ (unbounded .strict s).issues, issue.offset ≠ bytes fore) →
        ∃ text, ∀ strictness, Gives strictness body (.ok text) ∧
          (unbounded strictness s).text =
            (unbounded strictness fore).text ++ (text ++ (unbounded strictness rest).text) := by
  refine ⟨fun capacity only => render_agrees capacity s only, lenient_offsets s, ?_⟩
  rintro fore body rest rfl closed closing silent
  obtain ⟨text, strict⟩ := silent_gives .strict fore body rest closed closing silent
  refine ⟨text, fun strictness => ?_⟩
  have given : outcome strictness body = .ok text := by
    cases strictness with
    | strict => exact strict
    | lenient => exact outcome_keeps body text strict
  refine ⟨(gives_iff_outcome strictness body _).2 given, ?_⟩
  rw [unbounded_around strictness fore body rest closed closing, given, shown]

end ArithTemplate
