import ArithTemplate.Proofs.Advance
import ArithTemplate.Proofs.Failing
import ArithTemplate.Proofs.Written.Reading

set_option autoImplicit false

open ArithTemplate.Text (bytes bytes_append)
open ArithTemplate.Written

namespace ArithTemplate.Formula

def IsLimit (flaw : Flaw) : Prop := flaw = .nestedTooDeep ∨ flaw = .tooLarge

-- A run that read something or met a limit. Strictness has no say in such a run.
def Conclusive : Except (Misfit Flaw) (Formula × Progress) → Prop
  | .ok _ => True
  | .error misfit => IsLimit misfit.flaw

def Extends (wide narrow : Reader) : Prop := ∀ p, Conclusive (narrow p) → wide p = narrow p

-- What follows a conclusive run need only agree where it is conclusive itself.
theorem extends_then {narrow wide : Except (Misfit Flaw) (Formula × Progress)}
    {next next' : Formula → Progress → Except (Misfit Flaw) (Formula × Progress)}
    (later : ∀ f q, Conclusive (next f q) → next' f q = next f q) :
    (Conclusive narrow → wide = narrow) → Conclusive (match narrow with
        | .error e => .error e
        | .ok (f, q) => next f q) →
      (match wide with
        | .error e => .error e
        | .ok (f, q) => next' f q : Except (Misfit Flaw) (Formula × Progress)) =
      (match narrow with
        | .error e => .error e
        | .ok (f, q) => next f q) := by
  intro first conclusive
  cases narrow with
  | error e =>
      have same : wide = .error e := first conclusive
      simp only [same]
  | ok result =>
      have same : wide = .ok result := first trivial
      simp only [same]
      exact later _ _ conclusive

theorem chain_extends (operation? : Char → Option Operation) (wide narrow : Reader)
    (wider : Extends wide narrow) (rounds : Nat) (left : Formula) :
    Extends (chain operation? wide rounds left) (chain operation? narrow rounds left) := by
  induction rounds generalizing left with
  | zero =>
      intro p _
      rfl
  | succ rounds hypothesis =>
      intro p
      simp only [chain]
      cases known : p.scan.skipBlank.peek.bind operation? with
      | none => exact fun _ => rfl
      | some operation =>
          refine extends_then (fun right q => ?_) (wider _)
          refine extends_then (fun joined r => ?_) (fun _ => rfl)
          exact hypothesis joined r

theorem chained_extends (operation? : Char → Option Operation) (wide narrow : Reader)
    (wider : Extends wide narrow) :
    Extends (chained operation? wide) (chained operation? narrow) := by
  intro p
  refine extends_then (fun first q => ?_) (wider p)
  exact chain_extends operation? wide narrow wider _ first q

-- The closing parenthesis that strict reading asks for is the character that lenient reading takes,
-- and a missing operand is conclusive for lenient reading only.
theorem operand_extends (wide narrow : Option Reader)
    (inner : (wide = none ∧ narrow = none) ∨
      ∃ read read', wide = some read ∧ narrow = some read' ∧ Extends read read') :
    Extends (operand .lenient wide) (operand .strict narrow) := by
  intro p
  simp only [operand]
  cases p.scan.skipBlank.eat '(' with
  | mk opened inside =>
      cases opened with
      | true =>
          rcases inner with ⟨rfl, rfl⟩ | ⟨read, read', rfl, rfl, wider⟩
          · exact fun _ => rfl
          · refine extends_then (fun f q conclusive => ?_) (wider _)
            cases closing : q.scan.eat ')' with
            | mk closed after =>
                cases closed with
                | true => simp only [bump_of_eat _ _ _ closing]
                | false =>
                    simp only [closing] at conclusive
                    rcases conclusive with absurd | absurd <;> cases absurd
      | false =>
          cases p.scan.skipBlank.number with
          | mk found after =>
              cases found with
              | some value => exact fun _ => rfl
              | none =>
                  intro conclusive
                  rcases conclusive with absurd | absurd <;> cases absurd

theorem sum_within_extends (depth : Nat) :
    Extends (sumWithin .lenient depth) (sumWithin .strict depth) := by
  have level (depth : Nat)
      (operands : Extends (operandWithin .lenient depth) (operandWithin .strict depth)) :
      Extends (sumWithin .lenient depth) (sumWithin .strict depth) := by
    rw [sum_within, sum_within]
    exact chained_extends sum? _ _ (chained_extends product? _ _ operands)
  induction depth with
  | zero => exact level 0 (operand_extends none none (.inl ⟨rfl, rfl⟩))
  | succ depth hypothesis =>
      exact level (depth + 1) (operand_extends _ _ (.inr ⟨_, _, rfl, rfl, hypothesis⟩))

theorem read_extends (s : Text) (reading : Reading)
    (result : Formula.read .strict s = .ok reading) : Formula.read .lenient s = .ok reading := by
  have run := sum_within_extends nestingLimit ⟨.start s, 0⟩
  unfold Formula.read at result ⊢
  cases strict : sumWithin .strict nestingLimit ⟨.start s, 0⟩ with
  | error e => simp only [strict, reduceCtorEq] at result
  | ok found =>
      rw [strict] at run
      simp only [strict] at result
      simp only [run trivial]
      split at result
      · cases result
      · exact result

theorem read_limit (s : Text) (flaw : Flaw) (position : Nat) (limit : IsLimit flaw)
    (result : Formula.read .strict s = .error ⟨flaw, position⟩) :
    Formula.read .lenient s = .error ⟨flaw, position⟩ := by
  have run := sum_within_extends nestingLimit ⟨.start s, 0⟩
  unfold Formula.read at result ⊢
  cases strict : sumWithin .strict nestingLimit ⟨.start s, 0⟩ with
  | error e =>
      rw [strict] at run
      simp only [strict, Except.error.injEq] at result
      subst result
      simp only [run limit]
  | ok found =>
      simp only [strict] at result
      split at result
      · cases result
        rcases limit with absurd | absurd <;> cases absurd
      · cases result

-- The text in front of what is left over is a formula and the blanks behind it. It is a sentence, so
-- what stands behind it had no part in how it was read.
theorem left_over_sentence (s : Text) (f : Formula) (q : Progress)
    (result : sumWithin .strict nestingLimit ⟨.start s, 0⟩ = .ok (f, q)) :
    ∃ sentence : Sentence, s = sentence.text ++ q.scan.skipBlank.rest ∧
      bytes sentence.text = q.scan.skipBlank.position ∧
      Formula.read .strict sentence.text = .ok ⟨f, q.made⟩ := by
  obtain ⟨sentence, spelled, formula, nesting, made, fits⟩ := front_sentence s f q result
  have ahead := Scan.ahead_trans _ _ _ (sum_within_advances .strict nestingLimit _ _ _ result)
    (Scan.skip_ahead q.scan)
  obtain ⟨passed, rest, place⟩ := ahead
  have same : sentence.text = passed := List.append_cancel_right (spelled.symm.trans rest)
  refine ⟨sentence, spelled, ?_, ?_⟩
  · rw [same, place]
    exact (Nat.zero_add _).symm
  · rw [made, ← formula]
    exact sentence_reads sentence nesting (formula ▸ made ▸ fits)

-- What is left over is seen behind the whole formula only.
theorem left_over_failing :
    Failing .strict (fun _ _ _ => True) fun _ flaw => ∀ found, flaw ≠ .leftOver found where
  toStepwise := anything_stepwise .strict
  nestedTooDeep _ := nofun
  unclosed _ _ := nofun
  operandMissing _ := nofun
  full _ _ := nofun
  fullJoined _ _ _ _ _ _ _ _ _ _ := nofun
  inner _ _ _ _ unmet := unmet
  later _ _ _ _ _ _ _ unmet := unmet

theorem read_left_over (s : Text) (found : Char) (position : Nat)
    (result : Formula.read .strict s = .error ⟨.leftOver found, position⟩) :
    ∃ fore rest reading, s = fore ++ found :: rest ∧ bytes fore = position ∧
      Formula.read .strict fore = .ok reading ∧ Formula.read .lenient s = .ok reading := by
  have run := sum_within_extends nestingLimit ⟨.start s, 0⟩
  unfold Formula.read at result
  cases strict : sumWithin .strict nestingLimit ⟨.start s, 0⟩ with
  | error e =>
      simp only [strict, Except.error.injEq] at result
      subst result
      have unmet := sum_within_fails .strict _ _ left_over_failing nestingLimit _ _ strict
      exact absurd rfl (unmet found)
  | ok pair =>
      obtain ⟨f, q⟩ := pair
      obtain ⟨sentence, spelled, place, reads⟩ := left_over_sentence s f q strict
      rw [strict] at run
      have lenient : Formula.read .lenient s = .ok ⟨f, q.made⟩ := by
        unfold Formula.read
        simp only [run trivial]
      simp only [strict] at result
      cases behind : q.scan.skipBlank.rest with
      | nil => simp [Scan.peek, behind] at result
      | cons c tail =>
          simp [Scan.peek, behind] at result
          obtain ⟨rfl, rfl⟩ := result
          exact ⟨sentence.text, tail, _, behind ▸ spelled, place, reads, lenient⟩

-- Lenient reading keeps what strict reading says wherever that reads the text, meets a limit or
-- refuses only the end; it departs from it where an operand or a closing parenthesis is missing.
theorem read_lenient_extends_strict (s : Text) :
    (∀ reading, Formula.read .strict s = .ok reading → Formula.read .lenient s = .ok reading) ∧
      (∀ flaw position, flaw = .nestedTooDeep ∨ flaw = .tooLarge →
        Formula.read .strict s = .error ⟨flaw, position⟩ →
          Formula.read .lenient s = .error ⟨flaw, position⟩) ∧
      ∀ found position, Formula.read .strict s = .error ⟨.leftOver found, position⟩ →
        ∃ fore rest reading, s = fore ++ found :: rest ∧ bytes fore = position ∧
          Formula.read .strict fore = .ok reading ∧ Formula.read .lenient s = .ok reading :=
  ⟨read_extends s, read_limit s, read_left_over s⟩

example : Formula.read .strict ['7', ' ', '(', '1', ')'] = .error ⟨.leftOver '(', 2⟩ := by rfl

end ArithTemplate.Formula
