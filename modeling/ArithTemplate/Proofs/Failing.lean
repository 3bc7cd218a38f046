import ArithTemplate.Proofs.Steps

set_option autoImplicit false

namespace ArithTemplate.Formula

-- A relation between where a reader starts and what it fails for. A flaw is met at some step, and
-- from there the relation goes back to the start over the steps that were taken before.
structure Failing (strictness : Strictness) (relation : Progress → Formula → Progress → Prop)
    (failure : Progress → Flaw → Prop) : Prop extends Stepwise strictness relation where
  nestedTooDeep : ∀ p, failure p .nestedTooDeep
  unclosed : ∀ p start, failure p (.unclosed start)
  operandMissing : ∀ p, failure p (.operandMissing p.scan.skipBlank.peek)
  full : ∀ p, sizeLimit ≤ p.made → failure p .tooLarge
  fullJoined : ∀ p left q c right r, relation p left q → q.scan.skipBlank.peek = some c →
    relation ⟨q.scan.skipBlank.bump.2, q.made⟩ right r → sizeLimit ≤ r.made → failure p .tooLarge
  inner : ∀ p inside flaw, p.scan.skipBlank.eat '(' = (true, inside) →
    failure ⟨inside, p.made⟩ flaw → failure p flaw
  later : ∀ p left q c flaw, relation p left q → q.scan.skipBlank.peek = some c →
    failure ⟨q.scan.skipBlank.bump.2, q.made⟩ flaw → failure p flaw

def FailsFor (failure : Progress → Flaw → Prop) (read : Reader) : Prop :=
  ∀ p e, read p = .error e → failure p e.flaw

theorem counted_full (formula : Formula) (p : Progress) (e : Misfit Flaw)
    (result : counted formula p = .error e) : e.flaw = .tooLarge ∧ sizeLimit ≤ p.made := by
  unfold counted at result
  split at result
  · rename_i full
    cases result
    exact ⟨rfl, full⟩
  · cases result

section Fails

variable (strictness : Strictness) (relation : Progress → Formula → Progress → Prop)
  (failure : Progress → Flaw → Prop) (steps : Failing strictness relation failure)

include steps

theorem operand_fails (nested : Option Reader)
    (fails : ∀ read, nested = some read → FailsFor failure read) :
    FailsFor failure (operand strictness nested) := by
  have constant (p : Progress) (made : Nat) (same : p.made = made) (scan : Scan) (value : Binary64)
      (e : Misfit Flaw) (result : counted (.constant value) ⟨scan, made⟩ = .error e) :
      failure p e.flaw := by
    obtain ⟨flaw, full⟩ := counted_full _ _ _ result
    rw [flaw]
    exact steps.full p (same ▸ full)
  intro p e result
  unfold operand at result
  dsimp only at result
  split at result
  · rename_i inside eaten
    split at result
    · cases result
      exact steps.nestedTooDeep p
    · rename_i read
      split at result
      · rename_i failed
        cases result
        exact steps.inner p inside _ eaten (fails read rfl _ _ failed)
      · split at result <;> cases result
        exact steps.unclosed p _
  · split at result
    · exact constant p p.made rfl _ _ e result
    · exact constant p p.made rfl _ _ e result
    · cases result
      exact steps.operandMissing p

theorem chain_fails (operation? : Char → Option Operation) (read : Reader)
    (keeps : Keeps relation read) (fails : FailsFor failure read) (rounds : Nat) (p : Progress)
    (left : Formula) (q : Progress) (start : relation p left q) (e : Misfit Flaw)
    (result : chain operation? read rounds left q = .error e) : failure p e.flaw := by
  induction rounds generalizing left q with
  | zero => cases result
  | succ rounds hypothesis =>
      unfold chain at result
      dsimp only at result
      split at result
      · cases result
      · rename_i operation known
        obtain ⟨c, ahead, _⟩ := Option.bind_eq_some_iff.1 known
        split at result
        · rename_i failed
          cases result
          exact steps.later p left q c _ start ahead (fails _ _ failed)
        · rename_i right middle found
          have behind := keeps _ _ _ found
          split at result
          · rename_i failed
            cases result
            obtain ⟨flaw, full⟩ := counted_full _ _ _ failed
            rw [flaw]
            exact steps.fullJoined p left q c right middle start ahead behind full
          · rename_i joined _ count
            obtain ⟨rfl, rfl, room⟩ := counted_ok _ _ _ _ count
            exact hypothesis _ _ (steps.joined p left q c operation right middle start ahead behind room)
              result

theorem chained_fails (operation? : Char → Option Operation) (read : Reader)
    (keeps : Keeps relation read) (fails : FailsFor failure read) :
    FailsFor failure (chained operation? read) := by
  intro p e result
  unfold chained at result
  split at result
  · rename_i failed
    cases result
    exact fails _ _ failed
  · rename_i first middle found
    exact chain_fails strictness relation failure steps operation? read keeps fails _ p first middle
      (keeps _ _ _ found) e result

theorem sum_within_fails (depth : Nat) : FailsFor failure (sumWithin strictness depth) := by
  have operandKeeps := operand_within_keeps strictness relation steps.toStepwise
  have productKeeps := product_within_keeps strictness relation steps.toStepwise
  have level (depth : Nat)
      (inner : ∀ read, nestedWithin strictness depth = some read → FailsFor failure read) :
      FailsFor failure (sumWithin strictness depth) := by
    rw [sum_within]
    have operands := operand_fails strictness relation failure steps _ inner
    have products := chained_fails strictness relation failure steps product? _ (operandKeeps depth)
      operands
    exact chained_fails strictness relation failure steps sum? _ (productKeeps depth) products
  induction depth with
  | zero => exact level 0 nofun
  | succ depth hypothesis =>
      refine level (depth + 1) fun read same => ?_
      cases same
      exact hypothesis

end Fails
end ArithTemplate.Formula
