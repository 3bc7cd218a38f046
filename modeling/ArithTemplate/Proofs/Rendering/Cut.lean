import ArithTemplate.Proofs.Rendering.Whole

set_option autoImplicit false

open ArithTemplate.Text (bytes bytes_append)

namespace ArithTemplate

theorem finish_room (capacity : Nat) (t : Text) (offset : Nat) (room : bytes t ≤ capacity) :
    Rendering.finish (Sink.holding capacity t) offset = ⟨t, false, [], []⟩ := by
  have notFull : ¬ (Sink.holding capacity t).full = true := by
    rw [Sink.holding_full]
    omega
  rw [Rendering.finish, if_neg notFull, Sink.holding, Text.clip_of_bytes_le t capacity room]

theorem room_not_full (capacity : Nat) (t more : Text) (room : bytes (t ++ more) ≤ capacity) :
    ¬ (Sink.holding capacity t).full = true := by
  rw [Sink.holding_full]
  rw [bytes_append] at room
  omega

section Room

variable (strictness : Strictness) (trailing : Text) (unclosed : Option Text)
  (capacity capacity' : Nat)

theorem close_room (t : Text) (offset : Nat)
    (room : bytes (t ++ (trailing ++ Layout.keptTail strictness unclosed)) ≤ capacity)
    (room' : bytes (t ++ (trailing ++ Layout.keptTail strictness unclosed)) ≤ capacity') :
    Rendering.close strictness trailing unclosed offset (Sink.holding capacity t) =
      Rendering.close strictness trailing unclosed offset (Sink.holding capacity' t) := by
  rw [← List.append_assoc] at room room'
  have before : bytes (t ++ trailing) ≤ bytes (t ++ trailing ++ Layout.keptTail strictness unclosed) :=
    Text.bytes_prefix _ _ (List.prefix_append _ _)
  unfold Rendering.close
  rw [Sink.holding_push, Sink.holding_push]
  cases unclosed with
  | none =>
      exact (finish_room capacity _ offset (Nat.le_trans before room)).trans
        (finish_room capacity' _ offset (Nat.le_trans before room')).symm
  | some tail =>
      simp only [if_neg (room_not_full _ _ _ room), if_neg (room_not_full _ _ _ room')]
      cases strictness with
      | strict =>
          simp only [Sink.holding_push, finish_room capacity (t ++ trailing ++ '{' :: tail) offset room,
            finish_room capacity' (t ++ trailing ++ '{' :: tail) offset room']
      | lenient =>
          simp only [finish_room capacity _ offset (Nat.le_trans before room),
            finish_room capacity' _ offset (Nat.le_trans before room')]

-- With room for the whole output the capacity is not seen.
theorem write_room (slots : List Slot) (offset : Nat) (t : Text)
    (room : bytes (t ++ Layout.output strictness (outcome strictness) ⟨slots, trailing, unclosed⟩) ≤
      capacity)
    (room' : bytes (t ++ Layout.output strictness (outcome strictness) ⟨slots, trailing, unclosed⟩) ≤
      capacity') :
    Rendering.write strictness (Rendering.close strictness trailing unclosed) slots offset
        (Sink.holding capacity t) =
      Rendering.write strictness (Rendering.close strictness trailing unclosed) slots offset
        (Sink.holding capacity' t) := by
  induction slots generalizing offset t with
  | nil => exact close_room strictness trailing unclosed capacity capacity' t offset room room'
  | cons slot rest hypothesis =>
      rw [Layout.output_cons] at room room'
      rw [Rendering.write, Rendering.write, Sink.holding_push, Sink.holding_push]
      simp only [if_neg (room_not_full _ _ _ room), if_neg (room_not_full _ _ _ room')]
      rw [← List.append_assoc] at room room'
      cases filled : Rendering.fill strictness slot.body with
      | mk result events =>
          have given : outcome strictness slot.body = result := congrArg Prod.fst filled
          rw [given] at room room'
          cases result with
          | error cause =>
              rw [shown, List.append_nil] at room room'
              simp only [hypothesis _ (t ++ slot.literal) room room']
          | ok text =>
              rw [shown] at room room'
              simp only [Sink.holding_push, if_neg (room_not_full _ _ _ room),
                if_neg (room_not_full _ _ _ room')]
              rw [hypothesis _ (t ++ slot.literal ++ text) room room']

end Room

-- The rendering that no capacity cuts.
def unbounded (strictness : Strictness) (s : Text) : Rendering :=
  render ⟨bytes ((Layout.ofText s).output strictness (outcome strictness)), strictness⟩ s

theorem unbounded_text (strictness : Strictness) (s : Text) :
    (unbounded strictness s).text = (Layout.ofText s).output strictness (outcome strictness) :=
  (render_room strictness s 0).1

theorem unbounded_issues (strictness : Strictness) (s : Text) :
    (unbounded strictness s).issues =
      ((Layout.ofText s).reports (outcome strictness)).map Report.issue :=
  (render_room strictness s 0).2.1

theorem unbounded_whole (strictness : Strictness) (s : Text) :
    (unbounded strictness s).truncated = false :=
  (render_room strictness s 0).2.2

theorem unbounded_room (strictness : Strictness) (s : Text) (spare : Nat) :
    render ⟨bytes (unbounded strictness s).text + spare, strictness⟩ s = unbounded strictness s := by
  rw [unbounded_text]
  exact write_room strictness _ _ _ _ (Layout.ofText s).slots 0 [] (Nat.le_add_right _ spare)
    (Nat.le_refl _)

theorem clip_front (fore behind : Text) : Text.clip (bytes fore) (fore ++ behind) = fore := by
  rw [Text.clip_append_fits _ fore behind (Nat.le_refl _), Nat.sub_self]
  cases behind with
  | nil => exact List.append_nil fore
  | cons c tail =>
      have wide := c.utf8Size_pos
      rw [Text.clip, if_neg (by omega), List.append_nil]

theorem outcome_not_overflow (strictness : Strictness) (body : Text) (cause : Cause)
    (fails : outcome strictness body = .error cause) (capacity : Nat) : cause ≠ .overflow capacity := by
  rcases outcome_misfit strictness body cause fails with ⟨misfit, rfl⟩ | ⟨misfit, rfl⟩
  · exact nofun
  · exact nofun

-- Up to a brace that an issue is about, the text has the layout of what is written before the brace.
theorem report_place (strictness : Strictness) (trailing : Text) (unclosed : Option Text)
    (slots : List Slot) (offset : Nat) (before : Text)
    (proper : Layout.Proper ⟨slots, trailing, unclosed⟩) (report : Report)
    (member : report ∈ reportsFrom (outcome strictness) (unclosedReport trailing unclosed) slots offset
      before) :
    ∃ fore inside, Layout.text ⟨slots, trailing, unclosed⟩ = fore ++ '{' :: inside ∧
      report.issue.offset = offset + bytes fore ∧
      (∀ capacity, report.issue.cause ≠ .overflow capacity) ∧
      report.before = before ++ (Layout.ofText fore).output strictness (outcome strictness) := by
  induction slots generalizing offset before with
  | nil =>
      cases unclosed with
      | none => cases member
      | some tail =>
          cases List.mem_singleton.1 member
          exact ⟨trailing, tail, rfl, rfl, (fun _ same => by cases same),
            by rw [Layout.plain_output _ _ trailing proper.trailing]⟩
  | cons slot rest hypothesis =>
      have literal := proper.literals slot List.mem_cons_self
      have body := proper.bodies slot List.mem_cons_self
      have spelled : Layout.text ⟨slot :: rest, trailing, unclosed⟩ =
          slot.text ++ Layout.text ⟨rest, trailing, unclosed⟩ :=
        Layout.following_text slot ⟨rest, trailing, unclosed⟩
      rcases report_cases _ _ slot rest offset before report member with ⟨cause, fails, rfl⟩ | later
      · refine ⟨slot.literal, slot.body ++ '}' :: Layout.text ⟨rest, trailing, unclosed⟩, ?_, rfl,
          outcome_not_overflow strictness slot.body cause fails, ?_⟩
        · rw [spelled]
          simp [Slot.text]
        · rw [Layout.plain_output _ _ slot.literal literal]
      · have properRest := Layout.proper_rest slot rest trailing unclosed proper
        obtain ⟨fore, inside, shape, place, cause, written⟩ := hypothesis _ _ properRest later
        refine ⟨slot.text ++ fore, inside, ?_, ?_, cause, ?_⟩
        · rw [spelled, shape, List.append_assoc]
        · rw [place, bytes_append, Nat.add_assoc]
        · rw [written, Layout.of_text_slot slot fore literal body, Layout.following_output,
            List.append_assoc]

theorem report_located (strictness : Strictness) (s : Text) (report : Report)
    (member : report ∈ (Layout.ofText s).reports (outcome strictness)) :
    bytes (Text.clip report.issue.offset s) = report.issue.offset ∧
      (∃ inside, s = Text.clip report.issue.offset s ++ '{' :: inside) ∧
      (∀ capacity, report.issue.cause ≠ .overflow capacity) ∧
      (unbounded strictness (Text.clip report.issue.offset s)).text = report.before := by
  obtain ⟨proper, spelled⟩ := Layout.of_text_proper s
  obtain ⟨fore, inside, shape, place, cause, written⟩ :=
    report_place strictness _ _ _ 0 [] proper report member
  rw [Nat.zero_add] at place
  have whole : s = fore ++ '{' :: inside := spelled.symm.trans shape
  have front : Text.clip report.issue.offset s = fore := by
    rw [place, whole]
    exact clip_front fore _
  rw [front]
  exact ⟨place.symm, ⟨inside, whole⟩, cause, (unbounded_text strictness fore).trans written.symm⟩

theorem kept_reports (strictness : Strictness) (s : Text) (capacity : Nat) :
    ((unbounded strictness s).issues.filter fun issue =>
        decide (bytes (unbounded strictness (Text.clip issue.offset s)).text ≤ capacity)) =
      (((Layout.ofText s).reports (outcome strictness)).filter fun report =>
        decide (bytes report.before ≤ capacity)).map Report.issue := by
  rw [unbounded_issues, List.filter_map]
  refine congrArg _ (List.filter_congr fun report member => ?_)
  obtain ⟨_, _, _, written⟩ := report_located strictness s report member
  exact congrArg (fun t => decide (bytes t ≤ capacity)) written

-- What the capacity takes away is the end of the output and the issues of that end.
theorem render_cut_of_unbounded (strictness : Strictness) (s : Text) (capacity : Nat) :
    let whole := unbounded strictness
    let cut := render ⟨capacity, strictness⟩ s
    (∀ spare, render ⟨bytes (whole s).text + spare, strictness⟩ s = whole s) ∧
      Text.LongestPrefix capacity (whole s).text cut.text ∧
      (cut.truncated = true ↔ capacity < bytes (whole s).text) ∧
      (∀ issue ∈ (whole s).issues, bytes (Text.clip issue.offset s) = issue.offset ∧
        (∃ inside, s = Text.clip issue.offset s ++ '{' :: inside) ∧
        ∀ other, issue.cause ≠ .overflow other) ∧
      (∃ offset, cut.issues =
        ((whole s).issues.filter fun issue =>
          decide (bytes (whole (Text.clip issue.offset s)).text ≤ capacity)) ++
          if cut.truncated then [⟨offset, .overflow capacity⟩] else []) ∧
      ∀ more, cut.text <+: (render ⟨capacity + more, strictness⟩ s).text := by
  intro whole cut
  obtain ⟨text, truncated, offset, issues⟩ := render_cut ⟨capacity, strictness⟩ s
  dsimp only at text truncated issues
  rw [← unbounded_text] at text truncated issues
  refine ⟨unbounded_room strictness s, ?_, ?_, ?_, ⟨offset, ?_⟩, ?_⟩
  · rw [text]
    exact Text.clip_longest capacity _
  · rw [truncated]
    exact decide_eq_true_iff
  · rw [unbounded_issues]
    intro issue member
    obtain ⟨report, inReports, rfl⟩ := List.mem_map.1 member
    obtain ⟨size, brace, cause, _⟩ := report_located strictness s report inReports
    exact ⟨size, brace, cause⟩
  · rw [kept_reports, issues, truncated]
    simp only [decide_eq_true_eq]
  · intro more
    rw [text, (render_cut ⟨capacity + more, strictness⟩ s).text, ← unbounded_text]
    exact Text.clip_mono _ _ _ (Nat.le_add_right capacity more)

end ArithTemplate
