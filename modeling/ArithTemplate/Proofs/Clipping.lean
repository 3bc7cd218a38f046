import ArithTemplate.Rendering.Sink

set_option autoImplicit false

namespace ArithTemplate

namespace Text

-- Texts are lists of characters, so every prefix ends between two characters.
structure LongestPrefix (limit : Nat) (s t : Text) : Prop where
  front : t <+: s
  fits : bytes t ≤ limit
  longest : ∀ u, u <+: s → bytes u ≤ limit → u <+: t

theorem clip_longest (limit : Nat) (s : Text) : LongestPrefix limit s (clip limit s) := by
  refine ⟨clip_isPrefix s limit, bytes_clip_le s limit, ?_⟩
  intro u front fits
  induction s generalizing limit u with
  | nil => simpa [clip] using front
  | cons c rest hypothesis =>
      cases u with
      | nil => exact List.nil_prefix
      | cons d tail =>
          obtain ⟨rfl, behind⟩ := List.cons_prefix_cons.1 front
          simp only [bytes] at fits
          rw [clip, if_pos (by omega)]
          exact List.cons_prefix_cons.2 ⟨rfl, hypothesis (limit - d.utf8Size) tail behind (by omega)⟩

theorem bytes_prefix (s t : Text) (front : s <+: t) : bytes s ≤ bytes t := by
  obtain ⟨rest, rfl⟩ := front
  rw [bytes_append]
  omega

theorem clip_mono (limit limit' : Nat) (s : Text) (less : limit ≤ limit') :
    clip limit s <+: clip limit' s :=
  (clip_longest limit' s).longest _ (clip_isPrefix s limit)
    (Nat.le_trans (bytes_clip_le s limit) less)

theorem clip_append_fits (limit : Nat) (s t : Text) (fits : bytes s ≤ limit) :
    clip limit (s ++ t) = s ++ clip (limit - bytes s) t := by
  induction s generalizing limit with
  | nil => rfl
  | cons c rest hypothesis =>
      simp only [bytes] at fits
      rw [List.cons_append, clip, if_pos (by omega), hypothesis _ (by omega), bytes, Nat.sub_sub,
        List.cons_append]

theorem clip_append_over (limit : Nat) (s t : Text) (exceeds : limit < bytes s) :
    clip limit (s ++ t) = clip limit s := by
  induction s generalizing limit with
  | nil => simp [bytes] at exceeds
  | cons c rest hypothesis =>
      simp only [bytes] at exceeds
      rw [List.cons_append, clip, clip]
      split
      · rw [hypothesis _ (by omega)]
      · rfl

-- The parts of a text at the last place up to a byte where a character ends.
structure PartedLast (limit : Nat) (s : Text) (parts : Text × Text) : Prop where
  parted : atByte (bytes parts.1) s = some parts
  within : bytes parts.1 ≤ limit
  last : ∀ n, bytes parts.1 < n → n ≤ limit → atByte n s = none

theorem back_from_parts (limit : Nat) (s : Text) : PartedLast limit s (backFrom s limit) := by
  induction limit with
  | zero =>
      have start : atByte 0 s = some ([], s) := at_byte_front [] s
      exact ⟨start, Nat.le_refl 0, fun n above below => absurd below (Nat.not_le.2 above)⟩
  | succ limit hypothesis =>
      cases parted : atByte (limit + 1) s with
      | some parts =>
          have ends := ((at_byte_iff _ s _ _).1 parted).2
          simp only [backFrom, parted]
          exact ⟨ends ▸ parted, Nat.le_of_eq ends, fun n above below => by omega⟩
      | none =>
          simp only [backFrom, parted]
          refine ⟨hypothesis.parted, Nat.le_succ_of_le hypothesis.within, fun n above below => ?_⟩
          rcases Nat.le_succ_iff.1 below with inside | rfl
          · exact hypothesis.last n above inside
          · exact parted

theorem prefix_whole (s t : Text) (front : s <+: t) (size : bytes t ≤ bytes s) : s = t := by
  obtain ⟨extra, rfl⟩ := front
  rw [bytes_append] at size
  rw [(bytes_zero_iff extra).1 (by omega), List.append_nil]

theorem back_from_clip (limit : Nat) (s : Text) : (backFrom s limit).1 = clip limit s := by
  have place := back_from_parts limit s
  have whole := ((at_byte_iff _ s _ _).1 place.parted).1
  have front := (clip_longest limit s).longest _ ⟨_, whole.symm⟩ place.within
  refine prefix_whole _ _ front (Nat.le_of_not_lt fun longer => ?_)
  -- The clipped text would end at a place that was passed.
  obtain ⟨rest, split⟩ := clip_isPrefix s limit
  have parted := at_byte_front (clip limit s) rest
  rw [split, place.last _ longer (bytes_clip_le s limit)] at parted
  cases parted

end Text

namespace Sink

theorem push_clipped (sink : Sink) (s : Text) : sink.push s =
    if sink.full then sink
    else
      let room := sink.capacity - Text.bytes sink.text
      if Text.bytes s ≤ room then { sink with text := sink.text ++ s }
      else { sink with text := sink.text ++ Text.clip room s, full := true } := by
  simp only [push, offer, Text.back_from_clip]
  split
  · rfl
  · split <;> rfl

-- The sink of a given capacity after `t` was pushed, in however many pieces.
def holding (capacity : Nat) (t : Text) : Sink :=
  ⟨capacity, Text.clip capacity t, decide (capacity < Text.bytes t)⟩

theorem holding_nil (capacity : Nat) : holding capacity [] = empty capacity := rfl

theorem holding_full (capacity : Nat) (t : Text) :
    (holding capacity t).full = true ↔ capacity < Text.bytes t := decide_eq_true_iff

theorem holding_push (capacity : Nat) (t s : Text) :
    (holding capacity t).push s = holding capacity (t ++ s) := by
  by_cases exceeds : capacity < Text.bytes t
  · have longer : capacity < Text.bytes (t ++ s) := by
      rw [Text.bytes_append]
      omega
    rw [push_full _ s ((holding_full capacity t).2 exceeds), holding, holding,
      Text.clip_append_over capacity t s exceeds, decide_eq_true exceeds, decide_eq_true longer]
  · have held : Text.clip capacity t = t := Text.clip_of_bytes_le t capacity (by omega)
    rw [push_clipped, if_neg (exceeds ∘ (holding_full capacity t).1)]
    simp only [holding, held, Text.clip_append_fits capacity t s (by omega), Text.bytes_append]
    split
    · rename_i fits
      rw [Text.clip_of_bytes_le s _ fits, decide_eq_false (by omega), decide_eq_false (by omega)]
    · rw [decide_eq_true (by omega)]

theorem holding_offer (capacity : Nat) (t s : Text) : (holding capacity t).offer s =
    (decide (Text.bytes (t ++ s) ≤ capacity), holding capacity (t ++ s)) := by
  have pushed : ((holding capacity t).offer s).2 = holding capacity (t ++ s) := holding_push capacity t s
  refine Prod.ext ?_ pushed
  rw [offer_answer, push, pushed, holding, ← decide_not]
  exact decide_eq_decide.2 Nat.not_lt

theorem holding_within (capacity : Nat) (t : Text) :
    Text.bytes (holding capacity t).text ≤ (holding capacity t).capacity :=
  Text.bytes_clip_le t capacity

-- Pushes one after another: what each of them answered, and the sink behind them.
def offers (sink : Sink) : List Text → List Bool × Sink
  | [] => ([], sink)
  | s :: rest =>
      let (whole, next) := sink.offer s
      let (answers, last) := offers next rest
      (whole :: answers, last)

theorem holding_offers (capacity : Nat) (t : Text) (pieces : List Text) :
    (holding capacity t).offers pieces =
      ((List.range pieces.length).map fun i =>
          decide (Text.bytes (t ++ (pieces.take (i + 1)).flatten) ≤ capacity),
        holding capacity (t ++ pieces.flatten)) := by
  induction pieces generalizing t with
  | nil => simp [offers]
  | cons s rest hypothesis =>
      have later (i : Nat) : t ++ (List.take (i + 1) (s :: rest)).flatten =
          t ++ s ++ (List.take i rest).flatten := by
        rw [List.take_succ_cons, List.flatten_cons, List.append_assoc]
      have whole : t ++ (s :: rest).flatten = t ++ s ++ rest.flatten := by
        rw [List.flatten_cons, List.append_assoc]
      simp only [offers, holding_offer, hypothesis, List.length_cons, List.range_succ_eq_map,
        List.map_cons, List.map_map, Function.comp_def, later, whole, List.take_zero, List.flatten_nil,
        List.append_nil]

-- A sink depends on what is pushed together and not on the pieces it comes in. It never holds more
-- than it has room for, and looking for a place to cut always comes to one.
theorem pieces_pushed_as_one (capacity : Nat) (pieces : List Text) :
    let answers := ((empty capacity).offers pieces).1
    let reached := ((empty capacity).offers pieces).2
    let room := reached.capacity - Text.bytes reached.text
    Text.LongestPrefix capacity pieces.flatten reached.text ∧
      (reached.full = true ↔ capacity < Text.bytes pieces.flatten) ∧
      (answers = (List.range pieces.length).map fun i =>
        decide (Text.bytes (pieces.take (i + 1)).flatten ≤ capacity)) ∧
      reached.capacity = capacity ∧ Text.bytes reached.text ≤ reached.capacity ∧
      ∀ s : Text, Text.PartedLast room s (Text.backFrom s room) := by
  have run := holding_offers capacity [] pieces
  rw [holding_nil] at run
  rw [run]
  exact ⟨Text.clip_longest capacity _, holding_full capacity _, rfl, rfl, holding_within capacity _,
    Text.back_from_parts _⟩

-- A character of two bytes has no room, and what comes behind it would have.
example : (empty 2).offers [['h'], ['é'], ['l']] = ([true, false, false], ⟨2, ['h'], true⟩) := by
  decide

end Sink
end ArithTemplate
