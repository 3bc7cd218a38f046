import ArithTemplate.Proofs.Made
import ArithTemplate.Proofs.Measures

set_option autoImplicit false

namespace ArithTemplate.Formula

theorem evaluate_numbers (f : Formula) (plain : f.texts = []) : ∃ value, f.evaluate = .ok value := by
  induction f with
  | constant value => exact ⟨value, rfl⟩
  | text content => cases plain
  | binary operation left right leftValue rightValue =>
      obtain ⟨leftPlain, rightPlain⟩ := List.append_eq_nil_iff.1 plain
      obtain ⟨x, evaluated⟩ := leftValue leftPlain
      obtain ⟨y, evaluated'⟩ := rightValue rightPlain
      exact ⟨operation.apply x y, by rw [evaluate, evaluated, evaluated']⟩

-- The right operand comes to be evaluated only if the left one has a value, so a text in it can
-- only be the first if there is none on the left.
theorem evaluate_stops (f : Formula) (first : Text) (later : List Text)
    (found : f.texts = first :: later) : f.evaluate = .error ⟨first⟩ := by
  induction f generalizing later with
  | constant value => cases found
  | text content =>
      cases found
      rfl
  | binary operation left right leftStops rightStops =>
      rw [texts] at found
      cases onLeft : left.texts with
      | nil =>
          obtain ⟨x, evaluated⟩ := evaluate_numbers left onLeft
          rw [onLeft, List.nil_append] at found
          simp only [evaluate, evaluated, rightStops later found]
      | cons content rest =>
          rw [onLeft] at found
          obtain ⟨rfl, _⟩ := List.cons.inj found
          simp only [evaluate, leftStops rest onLeft]

theorem evaluates_iff_numbers (f : Formula) : (∃ value, f.evaluate = .ok value) ↔ f.texts = [] := by
  refine ⟨fun ⟨value, evaluated⟩ => ?_, evaluate_numbers f⟩
  cases found : f.texts with
  | nil => rfl
  | cons first later => cases evaluated.symm.trans (evaluate_stops f first later found)

theorem fails_iff_first_text (f : Formula) (e : TextOperand) :
    f.evaluate = .error e ↔ ∃ later, f.texts = e.content :: later := by
  refine ⟨fun failed => ?_, fun ⟨later, found⟩ => evaluate_stops f e.content later found⟩
  cases found : f.texts with
  | nil =>
      obtain ⟨value, evaluated⟩ := evaluate_numbers f found
      cases failed.symm.trans evaluated
  | cons first later =>
      cases failed.symm.trans (evaluate_stops f first later found)
      exact ⟨later, rfl⟩

-- Only a text keeps a formula from having a value, and the first one from the left is what is
-- reported. None is in a formula that was read.
theorem evaluate_fails_only_at_texts :
    (∀ strictness s reading, Formula.read strictness s = .ok reading →
      reading.formula.texts = [] ∧ ∃ value, reading.formula.evaluate = .ok value) ∧
    ∀ f : Formula, ((∃ value, f.evaluate = .ok value) ↔ f.texts = []) ∧
      ∀ e, f.evaluate = .error e ↔ ∃ later, f.texts = e.content :: later := by
  refine ⟨fun strictness s reading result => ?_, fun f =>
    ⟨evaluates_iff_numbers f, fails_iff_first_text f⟩⟩
  have evaluates := read_evaluates strictness s reading result
  exact ⟨(evaluates_iff_numbers reading.formula).1 evaluates, evaluates⟩

end ArithTemplate.Formula
