import ArithTemplate.Proofs.Rendering.Outcome
import ArithTemplate.Proofs.Rendering.Layout
import ArithTemplate.Proofs.Substitution.Replacing

set_option autoImplicit false

open ArithTemplate.Text (bytes)

namespace ArithTemplate

-- A character that no name has in it or around it, and no value.
structure Divider (c : Char) : Prop where
  notName : c.isAlphanum = false
  notEdge : c ≠ '_'
  notNumber : c ∉ Written.numberMarks

theorem divider_opening : Divider '{' := ⟨by decide, by decide, by decide⟩

theorem divider_closing : Divider '}' := ⟨by decide, by decide, by decide⟩

theorem divider_colon : Divider ':' := ⟨by decide, by decide, by decide⟩

theorem divider_not_value (c : Char) (divider : Divider c) (value : Binary64) : c ∉ value.text := by
  intro member
  rcases Written.text_characters value c member with word | number
  · exact absurd word (by simp [divider.notName])
  · exact divider.notNumber number

namespace Bindings

variable (bindings : Bindings) (c : Char) (divider : Divider c)

include divider

theorem divider_not_name (name : Text) (value : Binary64)
    (bound : bindings.value? name = some value) : c ∉ name := by
  intro member
  have word := bindings.bound_alphanumeric name value bound c member
  exact absurd word (by simp [divider.notName])

-- A name that is not closed in front of a divider is not closed behind it.
theorem unbound_at_divider (front behind : Text) (unbound : bindings.Unbound front) :
    bindings.Unbound (front ++ c :: behind) := by
  intro name rest shape
  cases known : bindings.value? name with
  | none => rfl
  | some value =>
      have outside := divider_not_name bindings c divider name value known
      rcases List.append_eq_append_iff.1 shape with ⟨more, reach, tail⟩ | ⟨more, within, tail⟩
      · -- The name would have to reach over the divider.
        cases more with
        | nil => exact absurd (List.cons.inj tail).1 divider.notEdge
        | cons d more =>
            obtain ⟨rfl, _⟩ := List.cons.inj tail
            exact absurd (reach ▸ List.mem_append_right front List.mem_cons_self) outside
      · cases more with
        | nil => exact absurd (List.cons.inj tail).1.symm divider.notEdge
        | cons d more =>
            obtain ⟨rfl, _⟩ := List.cons.inj tail
            exact known.symm.trans (unbound name more within)

theorem replace_at_divider (front behind : Text) :
    bindings.replace (front ++ c :: behind) =
      bindings.replace front ++ c :: bindings.replace behind := by
  induction front using replace_induction bindings with
  | plain front plain =>
      rw [bindings.replace_front front _ plain, bindings.replace_cons c behind divider.notEdge,
        bindings.replace_plain front plain]
  | bound before name rest value plain known hypothesis =>
      have shape : before ++ '_' :: (name ++ '_' :: rest) ++ c :: behind =
          before ++ '_' :: (name ++ '_' :: (rest ++ c :: behind)) := by simp
      rw [shape, bindings.replace_bound before name _ value plain known, hypothesis,
        bindings.replace_bound before name rest value plain known]
      simp only [List.append_assoc]
  | unbound before inside plain unknown hypothesis =>
      have shape : before ++ '_' :: inside ++ c :: behind =
          before ++ '_' :: (inside ++ c :: behind) := by simp
      rw [shape, bindings.replace_unbound before _ plain
          (unbound_at_divider bindings c divider inside behind unknown), hypothesis,
        bindings.replace_unbound before inside plain unknown]
      simp only [List.append_assoc, List.cons_append]

theorem replace_adds_no_divider (s : Text) (absent : c ∉ s) : c ∉ bindings.replace s := by
  induction s using replace_induction bindings with
  | plain s plain => rwa [bindings.replace_plain s plain]
  | bound before name rest value plain known hypothesis =>
      simp only [List.mem_append, List.mem_cons, not_or] at absent
      obtain ⟨notBefore, _, _, _, notRest⟩ := absent
      rw [bindings.replace_bound before name rest value plain known]
      exact List.not_mem_append notBefore
        (List.not_mem_append (divider_not_value c divider value) (hypothesis notRest))
  | unbound before inside plain unknown hypothesis =>
      simp only [List.mem_append, List.mem_cons, not_or] at absent
      obtain ⟨notBefore, _, notInside⟩ := absent
      rw [bindings.replace_unbound before inside plain unknown]
      exact List.not_mem_append notBefore
        (List.not_mem_cons_of_ne_of_not_mem divider.notEdge (hypothesis notInside))

end Bindings

def Slot.map (change : Text → Text) (slot : Slot) : Slot := ⟨change slot.literal, change slot.body⟩

def Placeholder.map (change : Text → Text) (p : Placeholder) : Placeholder :=
  ⟨change p.formula, p.pattern.map change⟩

namespace Layout

def map (change : Text → Text) (layout : Layout) : Layout :=
  ⟨layout.slots.map (Slot.map change), change layout.trailing, layout.unclosed.map change⟩

def placeholders (layout : Layout) : List Placeholder :=
  layout.slots.map fun slot => Placeholder.ofBody slot.body

variable (bindings : Bindings)

theorem replaced_text (layout : Layout) :
    (layout.map bindings.replace).text = bindings.replace layout.text := by
  obtain ⟨slots, trailing, unclosed⟩ := layout
  induction slots with
  | nil =>
      cases unclosed with
      | none => simp [text, map, unclosedText]
      | some tail =>
          exact (bindings.replace_at_divider '{' divider_opening trailing tail).symm
  | cons slot rest hypothesis =>
      have front : bindings.replace (slot.text ++ text ⟨rest, trailing, unclosed⟩) =
          (slot.map bindings.replace).text ++
            bindings.replace (text ⟨rest, trailing, unclosed⟩) := by
        have shape : slot.text ++ text ⟨rest, trailing, unclosed⟩ = slot.literal ++
            '{' :: (slot.body ++ '}' :: text ⟨rest, trailing, unclosed⟩) := by simp [Slot.text]
        rw [shape, bindings.replace_at_divider '{' divider_opening,
          bindings.replace_at_divider '}' divider_closing]
        simp [Slot.text, Slot.map]
      have spelled := following_text slot ⟨rest, trailing, unclosed⟩
      have spelled' := following_text (slot.map bindings.replace)
        (map bindings.replace ⟨rest, trailing, unclosed⟩)
      rw [hypothesis] at spelled'
      exact spelled'.trans ((congrArg bindings.replace spelled).trans front).symm

theorem replaced_proper (layout : Layout) (proper : layout.Proper) :
    (layout.map bindings.replace).Proper := by
  refine ⟨fun slot member => ?_, fun slot member => ?_,
    bindings.replace_adds_no_divider '{' divider_opening _ proper.trailing, fun tail known => ?_⟩
  · obtain ⟨origin, present, rfl⟩ := List.mem_map.1 member
    exact bindings.replace_adds_no_divider '{' divider_opening _ (proper.literals origin present)
  · obtain ⟨origin, present, rfl⟩ := List.mem_map.1 member
    exact bindings.replace_adds_no_divider '}' divider_closing _ (proper.bodies origin present)
  · obtain ⟨origin, present, rfl⟩ := Option.map_eq_some_iff.1 known
    exact bindings.replace_adds_no_divider '}' divider_closing _ (proper.unclosed origin present)

theorem of_text_replaced (s : Text) :
    ofText (bindings.replace s) = (ofText s).map bindings.replace := by
  obtain ⟨proper, spelled⟩ := of_text_proper s
  refine ((proper_layout_unique _ _).1 ⟨replaced_proper bindings _ proper, ?_⟩).symm
  rw [replaced_text, spelled]

theorem of_body_replaced (body : Text) : Placeholder.ofBody (bindings.replace body) =
    (Placeholder.ofBody body).map bindings.replace := by
  cases cut : Text.cut ':' body with
  | none =>
      have single := (Text.cut_eq_none_iff ':' body).1 cut
      rw [of_body_plain body single,
        of_body_plain _ (bindings.replace_adds_no_divider ':' divider_colon body single)]
      rfl
  | some parts =>
      obtain ⟨formula, pattern⟩ := parts
      obtain ⟨rfl, first⟩ := (Text.cut_eq_some_iff ':' body formula pattern).1 cut
      rw [of_body_shaped formula pattern first, bindings.replace_at_divider ':' divider_colon,
        of_body_shaped _ _ (bindings.replace_adds_no_divider ':' divider_colon formula first)]
      rfl

theorem placeholders_replaced (layout : Layout) :
    (layout.map bindings.replace).placeholders =
      layout.placeholders.map (Placeholder.map bindings.replace) := by
  simp [placeholders, map, Slot.map, Function.comp_def, of_body_replaced]

end Layout

-- Replacing happens inside the parts of a text and leaves the parts where they are.
theorem replace_keeps_layout (bindings : Bindings) (s : Text) :
    let replaced := bindings.replace s
    let before := Layout.ofText s
    let after := Layout.ofText replaced
    (∀ spare, bindings.replaceWithin (bytes replaced + spare) s = (replaced, [])) ∧
      (∀ layout : Layout, layout.Proper → (layout.map bindings.replace).Proper ∧
        (layout.map bindings.replace).text = bindings.replace layout.text) ∧
      after = before.map bindings.replace ∧
      after.placeholders = before.placeholders.map (Placeholder.map bindings.replace) ∧
      after.slots.length = before.slots.length ∧
      after.placeholders.map (·.pattern.isSome) = before.placeholders.map (·.pattern.isSome) ∧
      after.unclosed.isSome = before.unclosed.isSome := by
  intro replaced before after
  have layout : after = before.map bindings.replace := Layout.of_text_replaced bindings s
  have placeholders : after.placeholders =
      before.placeholders.map (Placeholder.map bindings.replace) := by
    rw [layout, Layout.placeholders_replaced]
  refine ⟨bindings.replace_within_room s, fun layout proper =>
    ⟨Layout.replaced_proper bindings layout proper, Layout.replaced_text bindings layout⟩,
    layout, placeholders, ?_, ?_, ?_⟩
  · rw [layout, Layout.map, List.length_map]
  · rw [placeholders, List.map_map]
    exact List.map_congr_left fun p _ => Option.isSome_map
  · rw [layout]
    exact Option.isSome_map

end ArithTemplate
