import ArithTemplate.Proofs.Advance
import ArithTemplate.Proofs.Written.Longest

set_option autoImplicit false

open ArithTemplate.Text (bytes bytes_append)

namespace ArithTemplate.Scan

inductive Move where
  | peek
  | bump
  | eat (expected : Char)
  | skipBlank
  | number
deriving DecidableEq

inductive Answer where
  | character (found : Option Char)
  | eaten (yes : Bool)
  | nothing
  | value (found : Option Binary64)
deriving DecidableEq

def move (s : Scan) : Move → Answer × Scan
  | .peek => (.character s.peek, s)
  | .bump => (.character s.bump.1, s.bump.2)
  | .eat expected => (.eaten (s.eat expected).1, (s.eat expected).2)
  | .skipBlank => (.nothing, s.skipBlank)
  | .number => (.value s.number.1, s.number.2)

def run (s : Scan) : List Move → List Answer × Scan
  | [] => ([], s)
  | m :: plan =>
      let (answer, next) := s.move m
      let (answers, last) := next.run plan
      (answer :: answers, last)

-- What a move finds in the text ahead: its answer, the characters it passes and those it leaves.
inductive Finds : Move → Text → Answer → Text → Text → Prop where
  | peek (ahead : Text) : Finds .peek ahead (.character ahead.head?) [] ahead
  | bump (c : Char) (rest : Text) : Finds .bump (c :: rest) (.character (some c)) [c] rest
  | bumpAtEnd : Finds .bump [] (.character none) [] []
  | eaten (c : Char) (rest : Text) : Finds (.eat c) (c :: rest) (.eaten true) [c] rest
  | uneaten (c : Char) (ahead : Text) (other : ahead.head? ≠ some c) :
      Finds (.eat c) ahead (.eaten false) [] ahead
  | blanks (run rest : Text) (inside : ∀ c ∈ run, Text.isBlank c = true)
      (boundary : ∀ c, rest.head? = some c → Text.isBlank c = false) :
      Finds .skipBlank (run ++ rest) .nothing run rest
  | number (ahead rest : Text) (n : Written.Number) (longest : Written.Longest ahead n rest) :
      Finds .number ahead (.value (some n.value)) n.text rest
  | noNumber (ahead : Text) (other : ∀ (n : Written.Number) (rest : Text), ahead ≠ n.text ++ rest) :
      Finds .number ahead (.value none) [] ahead

-- Moves one after another, each in the text that the one before it left.
inductive Passes : Text → List Move → List Answer → List Text → Text → Prop where
  | done (ahead : Text) : Passes ahead [] [] [] ahead
  | next (ahead middle rest piece : Text) (m : Move) (plan : List Move) (answer : Answer)
      (answers : List Answer) (pieces : List Text) (first : Finds m ahead answer piece middle)
      (later : Passes middle plan answers pieces rest) :
      Passes ahead (m :: plan) (answer :: answers) (piece :: pieces) rest

-- The moves that come to nothing, by what they answer.
def Idle : Move → Answer → Prop
  | .peek, _ => True
  | .bump, .character none => True
  | .eat _, .eaten false => True
  | .number, .value none => True
  | _, _ => False

theorem finds_splits (m : Move) (ahead piece rest : Text) (answer : Answer)
    (finds : Finds m ahead answer piece rest) : ahead = piece ++ rest := by
  cases finds with
  | peek | bump | bumpAtEnd | eaten | uneaten | blanks | noNumber => rfl
  | number _ _ n longest => exact longest.spelled

theorem idle_finds (m : Move) (ahead piece rest : Text) (answer : Answer)
    (finds : Finds m ahead answer piece rest) (idle : Idle m answer) : piece = [] := by
  cases finds with
  | peek | bumpAtEnd | uneaten | noNumber => rfl
  | bump | eaten | blanks | number => cases idle

theorem move_finds (s : Scan) (m : Move) : ∃ piece,
    Finds m s.rest (s.move m).1 piece (s.move m).2.rest ∧
      (s.move m).2.position = s.position + bytes piece := by
  obtain ⟨position, ahead⟩ := s
  cases m with
  | peek => exact ⟨[], .peek ahead, rfl⟩
  | bump =>
      cases ahead with
      | nil => exact ⟨[], .bumpAtEnd, rfl⟩
      | cons c rest => exact ⟨[c], .bump c rest, rfl⟩
  | eat expected =>
      cases ahead with
      | nil => exact ⟨[], .uneaten expected [] nofun, rfl⟩
      | cons c rest =>
          by_cases same : c = expected
          · subst same
            simp only [move, eat, if_true]
            exact ⟨[c], .eaten c rest, rfl⟩
          · simp only [move, eat, if_neg same]
            exact ⟨[], .uneaten expected (c :: rest) (by simpa using same), rfl⟩
  | skipBlank =>
      have whole := List.takeWhile_append_dropWhile (p := Text.isBlank) (l := ahead)
      have finds := Finds.blanks _ _ (run_inside Text.isBlank ahead) (run_boundary Text.isBlank ahead)
      rw [whole] at finds
      exact ⟨_, finds, rfl⟩
  | number =>
      rcases Written.number_longest ahead position with ⟨n, rest, longest, read⟩ | ⟨other, read⟩
      · simp only [move, read]
        exact ⟨n.text, .number ahead rest n longest, rfl⟩
      · simp only [move, read]
        exact ⟨[], .noNumber ahead other, rfl⟩

theorem idle_stays (s : Scan) (m : Move) (idle : Idle m (s.move m).1) : (s.move m).2 = s := by
  obtain ⟨piece, finds, place⟩ := s.move_finds m
  have rest := finds_splits _ _ _ _ _ finds
  rw [idle_finds _ _ _ _ _ finds idle] at rest place
  exact congr (congrArg Scan.mk place) rest.symm

theorem run_next (s : Scan) (plan : List Move) (m : Move) :
    (s.run (plan ++ [m])).2 = ((s.run plan).2.move m).2 := by
  induction plan generalizing s with
  | nil => rfl
  | cons first plan hypothesis => exact hypothesis (s.move first).2

theorem run_step (s : Scan) (plan : List Move) (k : Nat) :
    let reached := (s.run (plan.take k)).2
    (s.run (plan.take (k + 1))).2 =
      match plan[k]? with
      | none => reached
      | some m => (reached.move m).2 := by
  rw [List.take_add_one]
  cases plan[k]? with
  | none => rw [Option.toList_none, List.append_nil]
  | some m => exact run_next s (plan.take k) m

-- Behind any number of moves lies what they passed, and the place is the size of it.
theorem run_passes (s : Scan) (plan : List Move) : ∃ pieces : List Text,
    Passes s.rest plan (s.run plan).1 pieces (s.run plan).2.rest ∧
      ∀ k, s.rest = (pieces.take k).flatten ++ (s.run (plan.take k)).2.rest ∧
        (s.run (plan.take k)).2.position = s.position + bytes (pieces.take k).flatten := by
  induction plan generalizing s with
  | nil => exact ⟨[], .done s.rest, fun k => by simp [run, bytes]⟩
  | cons m plan hypothesis =>
      obtain ⟨piece, finds, place⟩ := s.move_finds m
      obtain ⟨pieces, passes, behind⟩ := hypothesis (s.move m).2
      refine ⟨piece :: pieces, .next _ _ _ _ _ _ _ _ _ finds passes, fun k => ?_⟩
      cases k with
      | zero => simp [run, bytes]
      | succ k =>
          obtain ⟨rest, position⟩ := behind k
          have first := finds_splits _ _ _ _ _ finds
          rw [List.take_succ_cons, List.take_succ_cons, List.flatten_cons, bytes_append]
          simp only [run]
          refine ⟨?_, ?_⟩
          · rw [List.append_assoc, ← rest]
            exact first
          · rw [position, place, Nat.add_assoc]

-- Whatever moves are made, the place is where a character ends. In front of it lies what was passed
-- move by move, and behind it what is left.
theorem moves_sound (input : Text) (plan : List Move) : ∃ pieces : List Text,
    Passes input plan ((start input).run plan).1 pieces ((start input).run plan).2.rest ∧
      ∀ k,
        let s := ((start input).run (plan.take k)).2
        let t := ((start input).run (plan.take (k + 1))).2
        Text.atByte s.position input = some ((pieces.take k).flatten, s.rest) ∧
          s.position ≤ bytes input ∧ s.position ≤ t.position ∧
          (s.atEnd = true ↔ s.rest = []) ∧ (s.atEnd = true ↔ bytes input ≤ s.position) ∧
          ∀ m ∈ plan[k]?, Idle m (s.move m).1 → t = s := by
  obtain ⟨pieces, passes, behind⟩ := run_passes (start input) plan
  refine ⟨pieces, passes, fun k => ?_⟩
  obtain ⟨rest, place⟩ := behind k
  have step := run_step (start input) plan k
  dsimp only at step ⊢
  generalize ((start input).run (plan.take k)).2 = s at rest place step ⊢
  generalize ((start input).run (plan.take (k + 1))).2 = t at step ⊢
  change input = _ at rest
  change s.position = 0 + _ at place
  rw [Nat.zero_add] at place
  have size : bytes input = s.position + bytes s.rest := by
    rw [rest, bytes_append, ← place]
  refine ⟨(Text.at_byte_iff _ _ _ _).2 ⟨rest, place.symm⟩, by omega, ?_, List.isEmpty_iff, ?_, ?_⟩
  · cases next : plan[k]? with
    | none =>
        rw [step, next]
    | some m =>
        obtain ⟨piece, _, moved⟩ := s.move_finds m
        rw [step, next, moved]
        exact Nat.le_add_right _ _
  · rw [atEnd, List.isEmpty_iff, ← Text.bytes_zero_iff]
    omega
  · intro m next idle
    rw [step, next]
    exact s.idle_stays m idle

-- A blank of three bytes, then a number with a sign, and a character that is not the one expected.
theorem number_behind_blank :
    let input : Text := ['\u3000', '-', '.', '5', 'é']
    let plan : List Move := [.skipBlank, .number, .eat ')', .bump]
    let one := ((start input).run (plan.take 2)).2
    let two := ((start input).run (plan.take 3)).2
    (one.position = 6 ∧ Move.eat ')' ∈ plan[2]? ∧ Idle (.eat ')') (one.move (.eat ')')).1) ∧
      two = one := by
  intro input plan one two
  have place : one.position = 6 := by decide +kernel
  have idle : Idle (.eat ')') (one.move (.eat ')')).1 := by
    have answer : (one.move (.eat ')')).1 = .eaten false := by decide +kernel
    rw [answer]
    trivial
  obtain ⟨_, _, steps⟩ := moves_sound input plan
  obtain ⟨_, _, _, _, _, stays⟩ := steps 2
  exact ⟨⟨place, rfl, idle⟩, stays (.eat ')') rfl idle⟩

end ArithTemplate.Scan
