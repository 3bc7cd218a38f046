import ArithTemplate.Proofs.DefaultText
import ArithTemplate.Proofs.Pattern.Characters
import ArithTemplate.Proofs.Rendering.Whole

set_option autoImplicit false

open ArithTemplate.Text (bytes)

namespace ArithTemplate

-- Texts without placeholders that are copied whole. Strict rendering copies a brace that stays open.
inductive Settled (strictness : Strictness) : Text → Prop
  | plain (s : Text) (noBrace : '{' ∉ s) : Settled strictness s
  | opened (literal tail : Text) (strict : strictness = .strict) (before : '{' ∉ literal)
      (open_ : '}' ∉ tail) : Settled strictness (literal ++ '{' :: tail)

theorem settled_output (strictness : Strictness) (s : Text) (settled : Settled strictness s) :
    (Layout.ofText s).output strictness (outcome strictness) = s := by
  cases settled with
  | plain _ noBrace => exact Layout.plain_output strictness _ s noBrace
  | opened literal tail strict before open_ =>
      rw [Layout.of_text_unclosed literal tail before open_, strict]
      rfl

theorem settled_clip (strictness : Strictness) (s : Text) (limit : Nat)
    (settled : Settled strictness s) : Settled strictness (Text.clip limit s) := by
  cases settled with
  | plain _ noBrace =>
      exact .plain _ fun member => noBrace ((Text.clip_isPrefix s limit).subset member)
  | opened literal tail strict before open_ =>
      by_cases exceeds : limit < bytes literal
      · rw [Text.clip_append_over limit literal _ exceeds]
        exact .plain _ fun member => before ((Text.clip_isPrefix literal limit).subset member)
      · rw [Text.clip_append_fits limit literal _ (Nat.le_of_not_lt exceeds), Text.clip]
        split
        · refine .opened literal _ strict before fun member => ?_
          exact open_ ((Text.clip_isPrefix tail _).subset member)
        · rw [List.append_nil]
          exact .plain literal before

theorem settled_render (settings : Settings) (s : Text) (settled : Settled settings.strictness s)
    (fits : bytes s ≤ settings.capacity) :
    (render settings s).text = s ∧ (render settings s).truncated = false := by
  obtain ⟨text, truncated, _⟩ := render_cut settings s
  rw [settled_output settings.strictness s settled] at text truncated
  rw [text, truncated]
  exact ⟨Text.clip_of_bytes_le s _ fits, decide_eq_false (Nat.not_lt.2 fits)⟩

theorem text_no_brace (x : Binary64) : '{' ∉ x.text := by
  intro member
  rcases Written.text_characters x _ member with alphanum | mark
  · exact absurd alphanum (by decide)
  · exact absurd mark (by decide)

theorem render_no_brace (s : Text) (p : Pattern) (reads : Pattern.read s = .ok p) (x : Binary64)
    (flat : '{' ∉ s) : '{' ∉ p.render x := by
  intro member
  rcases Pattern.render_characters s p reads x _ member with copied | alphanum | mark
  · exact flat copied
  · exact absurd alphanum (by decide)
  · exact absurd mark (by decide)

-- A brace in what a placeholder shows can only be copied from the literal text of its pattern.
theorem shown_no_brace (strictness : Strictness) (body : Text) (flat : '{' ∉ body) :
    '{' ∉ shown (outcome strictness body) := by
  obtain ⟨result, gives⟩ := gives_some strictness body
  rw [gives_outcome strictness body result gives]
  cases gives with
  | plain _ _ value => exact text_no_brace value
  | shaped formula directive _ value pattern _ _ _ shape =>
      refine render_no_brace directive pattern shape value fun member => flat ?_
      exact List.mem_append_right formula (List.mem_cons_of_mem ':' member)
  | plainMisfit | shapedMisfit | patternMisfit => exact List.not_mem_nil

theorem slots_no_brace (strictness : Strictness) (slots : List Slot)
    (literals : ∀ slot ∈ slots, '{' ∉ slot.literal) (flat : ∀ slot ∈ slots, '{' ∉ slot.body) :
    '{' ∉ slots.flatMap (Slot.output (outcome strictness)) := by
  intro member
  obtain ⟨slot, inside, written⟩ := List.mem_flatMap.1 member
  rcases List.mem_append.1 written with literal | value
  · exact literals slot inside literal
  · exact shown_no_brace strictness slot.body (flat slot inside) value

theorem output_settled (strictness : Strictness) (layout : Layout) (proper : layout.Proper)
    (flat : ∀ slot ∈ layout.slots, '{' ∉ slot.body) :
    Settled strictness (layout.output strictness (outcome strictness)) := by
  have front := List.not_mem_append (slots_no_brace strictness layout.slots proper.literals flat)
    proper.trailing
  rw [Layout.output, ← List.append_assoc]
  cases unclosed : layout.unclosed with
  | none =>
      rw [Layout.kept_tail_none, List.append_nil]
      exact .plain _ front
  | some tail =>
      cases strictness with
      | strict => exact .opened _ tail rfl front (proper.unclosed tail unclosed)
      | lenient =>
          rw [Layout.kept_tail_lenient, List.append_nil]
          exact .plain _ front

-- A rendering is its own rendering, unless a placeholder held a brace for a pattern to copy.
theorem render_idempotent (settings : Settings) (s : Text)
    (flat : ∀ slot ∈ (Layout.ofText s).slots, '{' ∉ slot.body) :
    let once := render settings s
    (render settings once.text).text = once.text ∧ (render settings once.text).truncated = false := by
  intro once
  have cut : once.text = Text.clip settings.capacity _ := (render_cut settings s).text
  have whole := output_settled settings.strictness _ (Layout.of_text_proper s).1 flat
  rw [cut]
  exact settled_render settings _ (settled_clip _ _ settings.capacity whole)
    (Text.bytes_clip_le _ settings.capacity)

-- The tail is cut behind its brace, and the stray closing brace stays in front of it.
theorem cut_tail_again :
    let s := ['}', '{', '1', '+', '1', '}', '{', '3']
    (∀ slot ∈ (Layout.ofText s).slots, '{' ∉ slot.body) ∧
      (render ⟨3, .strict⟩ s).text = ['}', '2', '{'] ∧
      (render ⟨3, .strict⟩ s).truncated = true ∧
      (render ⟨3, .strict⟩ ['}', '2', '{']).text = ['}', '2', '{'] ∧
      (render ⟨3, .strict⟩ ['}', '2', '{']).truncated = false := by
  intro s
  have slots : (Layout.ofText s).slots = [⟨['}'], ['1', '+', '1']⟩] := by decide +kernel
  have flat : ∀ slot ∈ (Layout.ofText s).slots, '{' ∉ slot.body := by
    rw [slots]
    exact List.forall_mem_singleton.2 (by decide)
  have once : (render ⟨3, .strict⟩ s).text = ['}', '2', '{'] := by decide +kernel
  have again := render_idempotent ⟨3, .strict⟩ s flat
  dsimp only at again
  rw [once] at again
  exact ⟨flat, once, by decide +kernel, again⟩

-- A brace that a pattern copies opens a placeholder in the second rendering.
example :
    let s := ['{', '1', ':', '{', '%', '.', '0', 'f', '}', '9', '*', '9', '}']
    (render {} s).text = ['{', '1', '9', '*', '9', '}'] ∧
      (render {} (render {} s).text).text = ['1', '7', '1'] := by
  decide +kernel

end ArithTemplate
