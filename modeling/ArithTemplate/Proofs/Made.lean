import ArithTemplate.Proofs.Steps

set_option autoImplicit false

namespace ArithTemplate.Formula

section Makes

variable (property : Formula → Prop) (constants : ∀ value, property (.constant value))
  (joins : ∀ operation left right, property left → property right →
    property (.binary operation left right))

include constants joins

theorem makes_stepwise (strictness : Strictness) : Stepwise strictness fun _ f _ => property f where
  number _ value _ _ _ := constants value
  missing _ _ _ := constants (.zero false)
  nested _ _ _ _ _ kept := kept
  blanks _ _ _ kept := kept
  joined _ left _ _ operation right _ leftKept _ rightKept _ :=
    joins operation left right leftKept rightKept

-- Reading builds formulas from constants and operations alone.
theorem read_makes (strictness : Strictness) (s : Text) (reading : Reading)
    (result : Formula.read strictness s = .ok reading) : property reading.formula := by
  have steps := makes_stepwise property constants joins strictness
  obtain ⟨_, kept⟩ := read_keeps strictness _ steps s reading result
  exact kept

end Makes

-- No reader makes a text, so what is read has a value.
theorem read_evaluates (strictness : Strictness) (s : Text) (reading : Reading)
    (result : Formula.read strictness s = .ok reading) :
    ∃ value, reading.formula.evaluate = .ok value := by
  refine read_makes (fun f => ∃ value, f.evaluate = .ok value) (fun value => ⟨value, rfl⟩) ?_
    strictness s reading result
  rintro operation left right ⟨x, leftValue⟩ ⟨y, rightValue⟩
  exact ⟨operation.apply x y, by rw [evaluate, leftValue, rightValue]⟩

end ArithTemplate.Formula
