import ArithTemplate.Rendering.Layout

set_option autoImplicit false

namespace ArithTemplate

def Slot.text (slot : Slot) : Text := slot.literal ++ '{' :: (slot.body ++ ['}'])

namespace Layout

def unclosedText : Option Text → Text
  | none => []
  | some tail => '{' :: tail

def text (layout : Layout) : Text :=
  layout.slots.flatMap Slot.text ++ (layout.trailing ++ unclosedText layout.unclosed)

-- Braces are where the layout says they are. A stray closing brace may stand outside of placeholders
-- and an opening one inside.
structure Proper (layout : Layout) : Prop where
  literals : ∀ slot ∈ layout.slots, '{' ∉ slot.literal
  bodies : ∀ slot ∈ layout.slots, '}' ∉ slot.body
  trailing : '{' ∉ layout.trailing
  unclosed : ∀ tail, layout.unclosed = some tail → '}' ∉ tail

def following (slot : Slot) (layout : Layout) : Layout :=
  { layout with slots := slot :: layout.slots }

theorem following_text (slot : Slot) (layout : Layout) :
    (following slot layout).text = slot.text ++ layout.text := by
  simp [following, text]

theorem following_proper (slot : Slot) (layout : Layout) (literal : '{' ∉ slot.literal)
    (body : '}' ∉ slot.body) (proper : layout.Proper) : (following slot layout).Proper := by
  refine ⟨?_, ?_, proper.trailing, proper.unclosed⟩
  · intro other member
    rcases List.mem_cons.1 member with rfl | later
    · exact literal
    · exact proper.literals other later
  · intro other member
    rcases List.mem_cons.1 member with rfl | later
    · exact body
    · exact proper.bodies other later

theorem proper_rest (slot : Slot) (slots : List Slot) (trailing : Text) (unclosed : Option Text)
    (proper : Proper ⟨slot :: slots, trailing, unclosed⟩) : Proper ⟨slots, trailing, unclosed⟩ :=
  ⟨fun other member => proper.literals other (List.mem_cons_of_mem slot member),
    fun other member => proper.bodies other (List.mem_cons_of_mem slot member),
    proper.trailing, proper.unclosed⟩

theorem of_text_plain (s : Text) (plain : '{' ∉ s) : ofText s = ⟨[], s, none⟩ := by
  have opened := (Text.cut_eq_none_iff '{' s).2 plain
  rw [ofText]
  split
  · rfl
  · rename_i found
    cases opened.symm.trans found

theorem of_text_unclosed (literal inside : Text) (before : '{' ∉ literal) (open_ : '}' ∉ inside) :
    ofText (literal ++ '{' :: inside) = ⟨[], literal, some inside⟩ := by
  have opened := (Text.cut_eq_some_iff '{' _ literal inside).2 ⟨rfl, before⟩
  have closed := (Text.cut_eq_none_iff '}' inside).2 open_
  rw [ofText]
  split
  · rename_i found
    cases opened.symm.trans found
  · rename_i found
    cases opened.symm.trans found
    split
    · rfl
    · rename_i found
      cases closed.symm.trans found

theorem of_text_slot (slot : Slot) (rest : Text) (before : '{' ∉ slot.literal)
    (inside : '}' ∉ slot.body) : ofText (slot.text ++ rest) = following slot (ofText rest) := by
  have shape : slot.text ++ rest = slot.literal ++ '{' :: (slot.body ++ '}' :: rest) := by
    simp [Slot.text]
  have opened := (Text.cut_eq_some_iff '{' _ slot.literal _).2 ⟨shape, before⟩
  have closed := (Text.cut_eq_some_iff '}' _ slot.body rest).2 ⟨rfl, inside⟩
  rw [ofText]
  split
  · rename_i found
    cases opened.symm.trans found
  · rename_i found
    cases opened.symm.trans found
    split
    · rename_i found
      cases closed.symm.trans found
    · rename_i found
      cases closed.symm.trans found
      rfl

theorem layout_cases (s : Text) : '{' ∉ s ∨
    (∃ literal inside, s = literal ++ '{' :: inside ∧ '{' ∉ literal ∧ '}' ∉ inside) ∨
    ∃ (slot : Slot) (rest : Text), s = slot.text ++ rest ∧ '{' ∉ slot.literal ∧ '}' ∉ slot.body := by
  cases opened : Text.cut '{' s with
  | none => exact .inl ((Text.cut_eq_none_iff '{' s).1 opened)
  | some parts =>
      obtain ⟨literal, inside⟩ := parts
      obtain ⟨whole, before⟩ := (Text.cut_eq_some_iff '{' s literal inside).1 opened
      cases closed : Text.cut '}' inside with
      | none =>
          exact .inr (.inl ⟨literal, inside, whole, before, (Text.cut_eq_none_iff '}' inside).1 closed⟩)
      | some parts =>
          obtain ⟨body, rest⟩ := parts
          obtain ⟨behind, noClosing⟩ := (Text.cut_eq_some_iff '}' inside body rest).1 closed
          exact .inr (.inr ⟨⟨literal, body⟩, rest, by simp [whole, behind, Slot.text], before, noClosing⟩)

theorem of_text_proper (s : Text) : (ofText s).Proper ∧ (ofText s).text = s := by
  rcases layout_cases s with plain | ⟨literal, inside, rfl, before, open_⟩ |
    ⟨slot, rest, rfl, before, inside⟩
  · rw [of_text_plain s plain]
    exact ⟨⟨nofun, nofun, plain, nofun⟩, by simp [text, unclosedText]⟩
  · rw [of_text_unclosed literal inside before open_]
    refine ⟨⟨nofun, nofun, before, fun tail same => ?_⟩, by simp [text, unclosedText]⟩
    cases same
    exact open_
  · have shorter : rest.length < (slot.text ++ rest).length := by
      simp [Slot.text]
      omega
    obtain ⟨proper, spelled⟩ := of_text_proper rest
    rw [of_text_slot slot rest before inside, following_text, spelled]
    exact ⟨following_proper slot _ before inside proper, rfl⟩
termination_by s.length

theorem of_text_text (layout : Layout) (proper : layout.Proper) : ofText layout.text = layout := by
  obtain ⟨slots, trailing, unclosed⟩ := layout
  induction slots with
  | nil =>
      cases unclosed with
      | none =>
          simpa [text, unclosedText] using of_text_plain trailing proper.trailing
      | some tail =>
          exact of_text_unclosed trailing tail proper.trailing (proper.unclosed tail rfl)
  | cons slot slots hypothesis =>
      have later := proper_rest slot slots trailing unclosed proper
      have front := of_text_slot slot (text ⟨slots, trailing, unclosed⟩)
        (proper.literals slot List.mem_cons_self) (proper.bodies slot List.mem_cons_self)
      rw [hypothesis later, ← following_text] at front
      exact front

theorem proper_layout_unique (s : Text) (layout : Layout) :
    layout.Proper ∧ layout.text = s ↔ layout = ofText s := by
  constructor
  · rintro ⟨proper, rfl⟩
    exact (of_text_text layout proper).symm
  · rintro rfl
    exact of_text_proper s

end Layout
end ArithTemplate
