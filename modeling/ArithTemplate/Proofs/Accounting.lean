import ArithTemplate.Proofs.Evaluation

set_option autoImplicit false

namespace ArithTemplate.Formula

-- At every moment what was counted and what lies on the pile make the whole.
theorem tally_sizes (count : Nat) (pile : List Formula) :
    tally count pile = count + pileSize pile := by
  induction count, pile using tally.induct with
  | case1 count => rw [tally, pileSize, Nat.add_zero]
  | case2 count value pile hypothesis => rw [tally, hypothesis, pileSize, size, Nat.add_assoc]
  | case3 count content pile hypothesis => rw [tally, hypothesis, pileSize, size, Nat.add_assoc]
  | case4 count operation left right pile hypothesis =>
      rw [tally, hypothesis]
      simp only [pileSize, size]
      omega

theorem tally_alone (f : Formula) : tally 0 [f] = f.size := by
  rw [tally_sizes, Nat.zero_add]
  exact Nat.add_zero f.size

-- A reader counts what it makes: an operation after its operands, and nothing twice.
theorem count_stepwise (strictness : Strictness) :
    Stepwise strictness fun p f q => q.made = p.made + f.size ∧ q.made ≤ sizeLimit where
  number _ _ _ _ room := ⟨rfl, room⟩
  missing _ _ room := ⟨rfl, room⟩
  nested _ _ _ _ _ inner := inner
  blanks _ _ _ counted := counted
  joined p left q c operation right r leftCounted _ rightCounted room := by
    refine ⟨?_, room⟩
    have first := leftCounted.1
    have second := rightCounted.1
    simp only [size] at second ⊢
    omega

theorem read_counts (strictness : Strictness) (s : Text) (reading : Reading)
    (result : Formula.read strictness s = .ok reading) :
    reading.made = reading.formula.size ∧ reading.made ≤ sizeLimit := by
  obtain ⟨_, counted, fits⟩ := read_keeps strictness _ (count_stepwise strictness) s reading result
  exact ⟨counted.trans (Nat.zero_add _), fits⟩

-- What is counted while reading, counted afterwards or given back is always the number of leaves
-- and operations. A formula that was read has one leaf more than operations, so the count is odd
-- and does not reach the limit.
theorem nodes_accounted :
    (∀ strictness s reading, Formula.read strictness s = .ok reading →
      reading.made = reading.formula.constants + reading.formula.operations ∧
      reading.release = reading.made ∧
      reading.formula.constants = reading.formula.operations + 1 ∧
      reading.made % 2 = 1 ∧ reading.made ≤ 4095 ∧ reading.formula.depth ≤ 2047) ∧
    ∀ f : Formula,
      (Reading.ofFormula f).made = f.constants + f.texts.length + f.operations ∧
      (Reading.ofFormula f).release = f.constants + f.texts.length + f.operations := by
  refine ⟨fun strictness s reading result => ?_, fun f => ⟨?_, ?_⟩⟩
  · obtain ⟨counted, fits⟩ := read_counts strictness s reading result
    have plain := (evaluates_iff_numbers _).1 (read_evaluates strictness s reading result)
    have parts := size_by_kind reading.formula
    have leaves := leaves_exceed_operations reading.formula
    have levels := depth_le_operations reading.formula
    rw [plain, List.length_nil] at parts leaves
    rw [sizeLimit] at fits
    refine ⟨by omega, ?_, by omega, by omega, by omega, by omega⟩
    rw [Reading.release, tally_alone, counted]
  · rw [Reading.ofFormula, tally_alone, size_by_kind]
  · rw [Reading.release, tally_alone, Reading.ofFormula, size_by_kind]

end ArithTemplate.Formula
