import ArithTemplate.Proofs.Readers

set_option autoImplicit false

namespace ArithTemplate.Formula

theorem bump_of_eat (c : Char) (scan after : Scan) (eaten : scan.eat c = (true, after)) :
    scan.bump.2 = after := by
  obtain ⟨position, rest⟩ := scan
  cases rest with
  | nil => cases eaten
  | cons d tail =>
      by_cases same : d = c
      · simpa [Scan.eat, Scan.bump, same] using eaten
      · simp [Scan.eat, same] at eaten

-- A relation between where a reader starts, what it makes and where it stops, which every step of
-- reading keeps. Nothing is said about readers that fail.
structure Stepwise (strictness : Strictness) (relation : Progress → Formula → Progress → Prop) :
    Prop where
  number : ∀ p value after, p.scan.skipBlank.number = (some value, after) → p.made < sizeLimit →
    relation p (.constant value) ⟨after, p.made + 1⟩
  missing : strictness = .lenient → ∀ p, p.made < sizeLimit →
    relation p (.constant (.zero false)) ⟨p.scan.skipBlank, p.made + 1⟩
  nested : ∀ p inside f q, p.scan.skipBlank.eat '(' = (true, inside) →
    relation ⟨inside, p.made⟩ f q → relation p f ⟨q.scan.bump.2, q.made⟩
  blanks : ∀ p f q, relation p f q → relation p f ⟨q.scan.skipBlank, q.made⟩
  joined : ∀ p left q c operation right r, relation p left q → q.scan.skipBlank.peek = some c →
    relation ⟨q.scan.skipBlank.bump.2, q.made⟩ right r → r.made < sizeLimit →
      relation p (.binary operation left right) ⟨r.scan, r.made + 1⟩

theorem anything_stepwise (strictness : Strictness) : Stepwise strictness fun _ _ _ => True where
  number _ _ _ _ _ := trivial
  missing _ _ _ := trivial
  nested _ _ _ _ _ _ := trivial
  blanks _ _ _ _ := trivial
  joined _ _ _ _ _ _ _ _ _ _ _ := trivial

def Keeps (relation : Progress → Formula → Progress → Prop) (read : Reader) : Prop :=
  ∀ p f q, read p = .ok (f, q) → relation p f q

section Keeps

variable (strictness : Strictness) (relation : Progress → Formula → Progress → Prop)
  (steps : Stepwise strictness relation)

include steps

theorem operand_keeps (nested : Option Reader)
    (inner : ∀ read, nested = some read → Keeps relation read) :
    Keeps relation (operand strictness nested) := by
  intro p f q result
  unfold operand at result
  dsimp only at result
  split at result
  · rename_i inside eaten
    split at result
    · cases result
    · rename_i read
      split at result
      · cases result
      · rename_i formula middle found
        have kept := steps.nested p inside formula middle eaten (inner read rfl _ _ _ found)
        split at result
        · rename_i after closed
          rw [bump_of_eat _ _ _ closed] at kept
          cases result
          exact kept
        · cases result
        · cases result
          exact kept
  · split at result
    · rename_i value after scanned
      obtain ⟨rfl, rfl, room⟩ := counted_ok _ _ _ _ result
      exact steps.number p value after scanned room
    · obtain ⟨rfl, rfl, room⟩ := counted_ok _ _ _ _ result
      exact steps.missing rfl p room
    · cases result

-- The chain started at `p` and has come to `q` with what it joined so far.
theorem chain_keeps (operation? : Char → Option Operation) (read : Reader)
    (keeps : Keeps relation read) (rounds : Nat) (p : Progress) (left : Formula) (q : Progress)
    (start : relation p left q) (f : Formula) (r : Progress)
    (result : chain operation? read rounds left q = .ok (f, r)) : relation p f r := by
  induction rounds generalizing left q with
  | zero =>
      cases result
      exact start
  | succ rounds hypothesis =>
      unfold chain at result
      dsimp only at result
      split at result
      · cases result
        exact steps.blanks p _ q start
      · rename_i operation known
        obtain ⟨c, ahead, _⟩ := Option.bind_eq_some_iff.1 known
        split at result
        · cases result
        · rename_i right middle found
          split at result
          · cases result
          · rename_i joined _ count
            obtain ⟨rfl, rfl, room⟩ := counted_ok _ _ _ _ count
            have later := keeps _ _ _ found
            have next := steps.joined p left q c operation right middle start ahead later room
            exact hypothesis _ _ next result

theorem chained_keeps (operation? : Char → Option Operation) (read : Reader)
    (keeps : Keeps relation read) : Keeps relation (chained operation? read) := by
  intro p f q result
  unfold chained at result
  split at result
  · cases result
  · rename_i first middle found
    exact chain_keeps strictness relation steps operation? read keeps _ p first middle
      (keeps _ _ _ found) f q result

theorem sum_within_keeps (depth : Nat) :
    Keeps relation (sumWithin strictness depth) := by
  have level (depth : Nat)
      (inner : ∀ read, nestedWithin strictness depth = some read → Keeps relation read) :
      Keeps relation (sumWithin strictness depth) := by
    rw [sum_within]
    have operands := operand_keeps strictness relation steps _ inner
    have products := chained_keeps strictness relation steps product? _ operands
    exact chained_keeps strictness relation steps sum? _ products
  induction depth with
  | zero => exact level 0 nofun
  | succ depth hypothesis =>
      refine level (depth + 1) fun read same => ?_
      cases same
      exact hypothesis

theorem operand_within_keeps (depth : Nat) : Keeps relation (operandWithin strictness depth) := by
  refine operand_keeps strictness relation steps _ fun read same => ?_
  cases depth with
  | zero => cases same
  | succ below =>
      cases same
      exact sum_within_keeps strictness relation steps below

theorem product_within_keeps (depth : Nat) : Keeps relation (productWithin strictness depth) :=
  chained_keeps strictness relation steps product? _ (operand_within_keeps strictness relation steps depth)

theorem read_keeps (s : Text) (reading : Reading)
    (result : Formula.read strictness s = .ok reading) :
    ∃ scan, relation ⟨.start s, 0⟩ reading.formula ⟨scan, reading.made⟩ := by
  unfold Formula.read at result
  split at result
  · cases result
  · rename_i f q found
    have kept := sum_within_keeps strictness relation steps nestingLimit _ _ _ found
    dsimp only at result
    split at result <;> cases result
    exact ⟨q.scan, kept⟩

end Keeps
end ArithTemplate.Formula
