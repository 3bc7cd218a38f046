import ArithTemplate.Proofs.DefaultText
import ArithTemplate.Substitution

set_option autoImplicit false

open ArithTemplate.Text (bytes)

namespace ArithTemplate.Bindings

variable (bindings : Bindings)

-- The value of a name is that of its first binding.
def Binds (name : Text) (value : Binary64) : Prop :=
  ∃ before after : Bindings, bindings = before ++ (name, value) :: after ∧
    ∀ other ∈ before, other.1 ≠ name

theorem is_name_iff (s : Text) : isName s = true ↔ s ≠ [] ∧ ∀ c ∈ s, c.isAlphanum = true := by
  simp [isName]

theorem found_iff_binds (name : Text) (value : Binary64) :
    (bindings.find? (·.1 == name)).map (·.2) = some value ↔ bindings.Binds name value := by
  constructor
  · intro found
    obtain ⟨⟨bound, _⟩, first, rfl⟩ := Option.map_eq_some_iff.1 found
    obtain ⟨same, before, after, shape, earlier⟩ := List.find?_eq_some_iff_append.1 first
    obtain rfl : bound = name := by simpa using same
    exact ⟨before, after, shape, fun other member => by simpa using earlier other member⟩
  · rintro ⟨before, after, shape, earlier⟩
    refine Option.map_eq_some_iff.2 ⟨(name, value), List.find?_eq_some_iff_append.2 ?_, rfl⟩
    exact ⟨by simp, before, after, shape, fun other member => by simpa using earlier other member⟩

theorem value_iff_binds (name : Text) (value : Binary64) :
    bindings.value? name = some value ↔ isName name = true ∧ bindings.Binds name value := by
  rw [value?, ← found_iff_binds]
  split
  · rename_i valid
    exact ⟨fun found => ⟨valid, found⟩, And.right⟩
  · rename_i invalid
    exact ⟨nofun, fun both => absurd both.1 invalid⟩

theorem bound_alphanumeric (name : Text) (value : Binary64)
    (bound : bindings.value? name = some value) : ∀ c ∈ name, c.isAlphanum = true :=
  ((is_name_iff name).1 ((bindings.value_iff_binds name value).1 bound).1).2

theorem bound_closes_nothing (name : Text) (value : Binary64)
    (bound : bindings.value? name = some value) : '_' ∉ name :=
  fun member => absurd (bindings.bound_alphanumeric name value bound '_' member) (by decide)

-- An underscore in front of this text opens no bound name.
def Unbound (inside : Text) : Prop :=
  ∀ name rest : Text, inside = name ++ '_' :: rest → bindings.value? name = none

theorem replace_plain (s : Text) (plain : '_' ∉ s) : bindings.replace s = s := by
  have opened := (Text.cut_eq_none_iff '_' s).2 plain
  rw [replace]
  split
  · rfl
  · rename_i found
    cases opened.symm.trans found

theorem replace_bound (before name rest : Text) (value : Binary64) (plain : '_' ∉ before)
    (bound : bindings.value? name = some value) :
    bindings.replace (before ++ '_' :: (name ++ '_' :: rest)) =
      before ++ (value.text ++ bindings.replace rest) := by
  have opened := (Text.cut_eq_some_iff '_' _ before (name ++ '_' :: rest)).2 ⟨rfl, plain⟩
  have closed := (Text.cut_eq_some_iff '_' _ name rest).2
    ⟨rfl, bindings.bound_closes_nothing name value bound⟩
  rw [replace]
  split
  · rename_i found
    cases opened.symm.trans found
  · rename_i found
    cases opened.symm.trans found
    split
    · rename_i found
      cases closed.symm.trans found
    · rename_i found
      cases closed.symm.trans found
      simp only [bound, List.append_assoc]

theorem replace_unbound (before inside : Text) (plain : '_' ∉ before)
    (unbound : bindings.Unbound inside) :
    bindings.replace (before ++ '_' :: inside) = before ++ '_' :: bindings.replace inside := by
  have opened := (Text.cut_eq_some_iff '_' _ before inside).2 ⟨rfl, plain⟩
  rw [replace]
  split
  · rename_i found
    cases opened.symm.trans found
  · rename_i found
    cases opened.symm.trans found
    split
    · rename_i closed
      rw [bindings.replace_plain inside ((Text.cut_eq_none_iff '_' inside).1 closed)]
    · rename_i closed
      obtain ⟨shape, _⟩ := (Text.cut_eq_some_iff '_' _ _ _).1 closed
      simp only [unbound _ _ shape]

theorem replace_cases (s : Text) : '_' ∉ s ∨
    (∃ before name rest value, s = before ++ '_' :: (name ++ '_' :: rest) ∧ '_' ∉ before ∧
      bindings.value? name = some value) ∨
    ∃ before inside, s = before ++ '_' :: inside ∧ '_' ∉ before ∧ bindings.Unbound inside := by
  cases opened : Text.cut '_' s with
  | none => exact .inl ((Text.cut_eq_none_iff '_' s).1 opened)
  | some parts =>
      obtain ⟨before, inside⟩ := parts
      obtain ⟨rfl, plain⟩ := (Text.cut_eq_some_iff '_' s before inside).1 opened
      by_cases bound : ∃ name rest value, inside = name ++ '_' :: rest ∧
          bindings.value? name = some value
      · obtain ⟨name, rest, value, rfl, known⟩ := bound
        exact .inr (.inl ⟨before, name, rest, value, rfl, plain, known⟩)
      · refine .inr (.inr ⟨before, inside, rfl, plain, fun name rest shape => ?_⟩)
        cases known : bindings.value? name with
        | none => rfl
        | some value => exact absurd ⟨name, rest, value, shape, known⟩ bound

-- What stands in front of the first underscore is copied.
theorem replace_front (front s : Text) (plain : '_' ∉ front) :
    bindings.replace (front ++ s) = front ++ bindings.replace s := by
  have both (before : Text) (before_plain : '_' ∉ before) : '_' ∉ front ++ before :=
    fun member => (List.mem_append.1 member).elim plain before_plain
  rcases bindings.replace_cases s with free | ⟨before, name, rest, value, rfl, free, bound⟩ |
    ⟨before, inside, rfl, free, unbound⟩
  · rw [bindings.replace_plain s free, bindings.replace_plain _ (both s free)]
  · rw [bindings.replace_bound before name rest value free bound, ← List.append_assoc,
      bindings.replace_bound _ name rest value (both before free) bound, List.append_assoc]
  · rw [bindings.replace_unbound before inside free unbound, ← List.append_assoc,
      bindings.replace_unbound _ inside (both before free) unbound, List.append_assoc]

theorem replace_cons (c : Char) (s : Text) (plain : c ≠ '_') :
    bindings.replace (c :: s) = c :: bindings.replace s :=
  bindings.replace_front [c] s (by simpa using plain.symm)

-- Replacing goes from underscore to underscore, and so do the proofs about it.
theorem replace_induction (holds : Text → Prop) (plain : ∀ s, '_' ∉ s → holds s)
    (bound : ∀ before name rest value, '_' ∉ before → bindings.value? name = some value →
      holds rest → holds (before ++ '_' :: (name ++ '_' :: rest)))
    (unbound : ∀ before inside, '_' ∉ before → bindings.Unbound inside → holds inside →
      holds (before ++ '_' :: inside)) (s : Text) : holds s := by
  rcases bindings.replace_cases s with free | ⟨before, name, rest, value, rfl, free, known⟩ |
    ⟨before, inside, rfl, free, unknown⟩
  · exact plain s free
  · have shorter : rest.length < (before ++ '_' :: (name ++ '_' :: rest)).length := by
      simp only [List.length_append, List.length_cons]
      omega
    exact bound before name rest value free known
      (replace_induction holds plain bound unbound rest)
  · have shorter : inside.length < (before ++ '_' :: inside).length := by
      simp only [List.length_append, List.length_cons]
      omega
    exact unbound before inside free unknown (replace_induction holds plain bound unbound inside)
termination_by s.length

theorem replace_nothing (s : Text) : replace [] s = s := by
  have unknown (name : Text) : value? [] name = none := by
    rw [value?]
    split <;> rfl
  refine replace_induction [] (fun s => replace [] s = s) (replace_plain []) ?_ ?_ s
  · intro before name rest value _ known
    cases (unknown name).symm.trans known
  · intro before inside free unbound hypothesis
    rw [replace_unbound [] before inside free unbound, hypothesis]

theorem replace_within_room (s : Text) (spare : Nat) :
    bindings.replaceWithin (bytes (bindings.replace s) + spare) s = (bindings.replace s, []) := by
  have fits : bytes (bindings.replace s) ≤ bytes (bindings.replace s) + spare :=
    Nat.le_add_right _ spare
  simp [replaceWithin, Sink.push, Sink.offer, Sink.empty, Text.bytes, fits]

end ArithTemplate.Bindings
