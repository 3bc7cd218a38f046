import ArithTemplate.Proofs.Made
import ArithTemplate.Rendering.Basic

set_option autoImplicit false

namespace ArithTemplate

-- What a placeholder gives, the text it is replaced by or the cause it fails for. The first colon of
-- a body ends its formula, and a pattern is not looked at behind a formula that does not read.
inductive Gives (strictness : Strictness) : Text → Except Cause Text → Prop
  | plain (formula : Text) (reading : Formula.Reading) (value : Binary64) (single : ':' ∉ formula)
      (reads : Formula.read strictness formula = .ok reading)
      (evaluates : reading.formula.evaluate = .ok value) : Gives strictness formula (.ok value.text)
  | shaped (formula directive : Text) (reading : Formula.Reading) (value : Binary64) (pattern : Pattern)
      (first : ':' ∉ formula) (reads : Formula.read strictness formula = .ok reading)
      (evaluates : reading.formula.evaluate = .ok value)
      (shape : Pattern.read directive = .ok pattern) :
      Gives strictness (formula ++ ':' :: directive) (.ok (pattern.render value))
  | plainMisfit (formula : Text) (misfit : Misfit Formula.Flaw) (single : ':' ∉ formula)
      (fails : Formula.read strictness formula = .error misfit) :
      Gives strictness formula (.error (.formula misfit))
  | shapedMisfit (formula directive : Text) (misfit : Misfit Formula.Flaw) (first : ':' ∉ formula)
      (fails : Formula.read strictness formula = .error misfit) :
      Gives strictness (formula ++ ':' :: directive) (.error (.formula misfit))
  | patternMisfit (formula directive : Text) (reading : Formula.Reading)
      (misfit : Misfit Pattern.Flaw) (first : ':' ∉ formula)
      (reads : Formula.read strictness formula = .ok reading)
      (fails : Pattern.read directive = .error misfit) :
      Gives strictness (formula ++ ':' :: directive) (.error (.pattern misfit))

def outcome (strictness : Strictness) (body : Text) : Except Cause Text :=
  (Rendering.fill strictness body).1

theorem of_body_plain (formula : Text) (single : ':' ∉ formula) :
    Placeholder.ofBody formula = ⟨formula, none⟩ := by
  rw [Placeholder.ofBody, (Text.cut_eq_none_iff ':' formula).2 single]

theorem of_body_shaped (formula directive : Text) (first : ':' ∉ formula) :
    Placeholder.ofBody (formula ++ ':' :: directive) = ⟨formula, some directive⟩ := by
  rw [Placeholder.ofBody, (Text.cut_eq_some_iff ':' _ formula directive).2 ⟨rfl, first⟩]

theorem gives_some (strictness : Strictness) (body : Text) :
    ∃ result, Gives strictness body result := by
  cases cut : Text.cut ':' body with
  | none =>
      have single := (Text.cut_eq_none_iff ':' body).1 cut
      cases reads : Formula.read strictness body with
      | error misfit => exact ⟨_, .plainMisfit body misfit single reads⟩
      | ok reading =>
          obtain ⟨value, evaluates⟩ := Formula.read_evaluates strictness body reading reads
          exact ⟨_, .plain body reading value single reads evaluates⟩
  | some parts =>
      obtain ⟨formula, directive⟩ := parts
      obtain ⟨rfl, first⟩ := (Text.cut_eq_some_iff ':' body formula directive).1 cut
      cases reads : Formula.read strictness formula with
      | error misfit => exact ⟨_, .shapedMisfit formula directive misfit first reads⟩
      | ok reading =>
          obtain ⟨value, evaluates⟩ := Formula.read_evaluates strictness formula reading reads
          cases shape : Pattern.read directive with
          | error misfit => exact ⟨_, .patternMisfit formula directive reading misfit first reads shape⟩
          | ok pattern =>
              exact ⟨_, .shaped formula directive reading value pattern first reads evaluates shape⟩

theorem gives_outcome (strictness : Strictness) (body : Text) (result : Except Cause Text)
    (gives : Gives strictness body result) : outcome strictness body = result := by
  unfold outcome Rendering.fill
  cases gives with
  | plain _ reading value single reads evaluates =>
      simp only [of_body_plain body single, reads, evaluates]
  | shaped formula directive reading value pattern first reads evaluates shape =>
      simp only [of_body_shaped formula directive first, reads, evaluates, shape]
  | plainMisfit _ misfit single fails => simp only [of_body_plain body single, fails]
  | shapedMisfit formula directive misfit first fails =>
      simp only [of_body_shaped formula directive first, fails]
  | patternMisfit formula directive reading misfit first reads fails =>
      obtain ⟨value, evaluates⟩ := Formula.read_evaluates strictness formula reading reads
      simp only [of_body_shaped formula directive first, reads, evaluates, fails]

theorem gives_iff_outcome (strictness : Strictness) (body : Text) (result : Except Cause Text) :
    Gives strictness body result ↔ outcome strictness body = result := by
  constructor
  · exact gives_outcome strictness body result
  · rintro rfl
    obtain ⟨result, gives⟩ := gives_some strictness body
    rw [gives_outcome strictness body result gives]
    exact gives

theorem outcome_misfit (strictness : Strictness) (body : Text) (cause : Cause)
    (fails : outcome strictness body = .error cause) :
    (∃ misfit, cause = .formula misfit) ∨ ∃ misfit, cause = .pattern misfit := by
  have gives := (gives_iff_outcome strictness body (.error cause)).2 fails
  generalize given : Except.error cause = result at gives
  cases gives with
  | plain | shaped => cases given
  | plainMisfit | shapedMisfit =>
      cases given
      exact .inl ⟨_, rfl⟩
  | patternMisfit =>
      cases given
      exact .inr ⟨_, rfl⟩

end ArithTemplate
