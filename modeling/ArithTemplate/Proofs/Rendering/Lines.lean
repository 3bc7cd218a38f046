import ArithTemplate.Proofs.Failing
import ArithTemplate.Proofs.Rendering.Whole
import ArithTemplate.Proofs.Wording
import ArithTemplate.Proofs.Written.Specification

set_option autoImplicit false

open ArithTemplate.Written (Scanned scan_scanned)

namespace ArithTemplate

-- A text within one line.
def Flat (s : Text) : Prop := '\n' ∉ s

namespace Flat

theorem append {s t : Text} (left : Flat s) (right : Flat t) : Flat (s ++ t) :=
  fun member => (List.mem_append.1 member).elim left right

theorem literal {s : Text} (plain : '\n' ∉ s := by decide) : Flat (String.ofList s).toList := by
  rwa [String.toList_ofList]

theorem digits {s : Text} (inside : ∀ c ∈ s, c.isDigit = true) : Flat s :=
  fun member => absurd (inside _ member) (by decide)

theorem number (n : Nat) : Flat (Numeral.ofNat n) :=
  digits fun _ member => Numeral.isDigit_of_mem_ofNat member

theorem letters {s : Text} (inside : ∀ c ∈ s, Pattern.isLengthLetter c = true) : Flat s :=
  fun member => absurd (inside _ member) (by decide)

-- What is shown of a formula stands behind blanks, and a line feed is one of them.
theorem peeked (scan : Scan) : Flat scan.skipBlank.peek.toList := by
  intro member
  have blank := run_boundary Text.isBlank scan.rest '\n' (Option.mem_toList.1 member)
  cases blank

end Flat

-- What a fault shows of the text it is found in.
def Formula.Flaw.shows : Formula.Flaw → Text
  | .operandMissing found => found.toList
  | .leftOver found => [found]
  | _ => []

def Pattern.Flaw.shows : Pattern.Flaw → Text
  | .fieldBeyondWord _ digits => digits
  | .lengthModifier letters => letters
  | .unknownConversion letter => [letter]
  | _ => []

namespace Flat

theorem formula (flaw : Formula.Flaw) (flat : Flat flaw.shows) : Flat flaw.wording := by
  cases flaw with
  | nestedTooDeep => exact append literal (number 128)
  | tooLarge => exact append literal (number 4096)
  | unclosed start => exact append literal (number start)
  | operandMissing found =>
      cases found with
      | none => exact literal
      | some found => exact append (append literal flat) literal
  | leftOver found => exact append (append literal flat) literal

theorem field (f : Pattern.Field) : Flat f.word := by
  cases f <;> exact literal

theorem pattern (flaw : Pattern.Flaw) (flat : Flat flaw.shows) : Flat flaw.wording := by
  cases flaw with
  | fieldAtRunTime f => exact append (append literal (field f)) literal
  | fieldBeyondWord f digits =>
      exact append (append (append (append literal (field f)) literal) flat) literal
  | fieldAboveLimit f value =>
      exact append (append (append (append (field f) literal) (number value)) literal) (number 512)
  | lengthModifier letters => exact append (append literal flat) literal
  | incomplete | secondDirective | noDirective => exact literal
  | unknownConversion letter => exact append (append literal flat) literal

theorem misfit {Flaw : Type} (describe : Flaw → Text) (m : Misfit Flaw)
    (flat : Flat (describe m.flaw)) : Flat (m.wording describe) := by
  unfold Misfit.wording
  exact append (append (append literal (number m.position)) literal) flat

end Flat

section Formula

open Formula

theorem shows_failing (strictness : Strictness) :
    Failing strictness (fun _ _ _ => True) fun _ flaw => Flat flaw.shows where
  toStepwise := anything_stepwise strictness
  nestedTooDeep _ := nofun
  unclosed _ _ := nofun
  operandMissing p := .peeked p.scan
  full _ _ := nofun
  fullJoined _ _ _ _ _ _ _ _ _ _ := nofun
  inner _ _ _ _ flat := flat
  later _ _ _ _ _ _ _ flat := flat

theorem formula_misfit_flat (strictness : Strictness) (s : Text) (misfit : Misfit Flaw)
    (fails : Formula.read strictness s = .error misfit) : Flat misfit.flaw.shows := by
  unfold Formula.read at fails
  split at fails
  · rename_i failed
    cases fails
    exact sum_within_fails strictness _ _ (shows_failing strictness) nestingLimit _ _ failed
  · rename_i formula q read
    dsimp only at fails
    split at fails
    · rename_i ahead
      cases fails
      have flat := Flat.peeked q.scan
      rwa [ahead] at flat
    · cases fails

end Formula

section Pattern

open Pattern

theorem field_misfit_flat (field : Field) (position : Nat) (raw : Text) (misfit : Misfit Flaw)
    (written : raw = ['*'] ∨ ∀ c ∈ raw, c.isDigit = true)
    (fails : fieldValue field position raw = .error misfit) : Flat misfit.flaw.shows := by
  unfold fieldValue at fails
  split at fails
  · cases fails
    exact nofun
  · rename_i star
    dsimp only at fails
    split at fails
    · cases fails
      exact .digits (written.resolve_left star)
    · split at fails <;> cases fails
      exact nofun

theorem width_misfit_flat (p : Parts) (scanned : Scanned p) (start : Nat) (misfit : Misfit Flaw)
    (fails : p.widthValue start = .error misfit) : Flat misfit.flaw.shows := by
  by_cases empty : p.width = []
  · rw [Parts.widthValue, if_pos empty] at fails
    cases fails
  · rw [Parts.widthValue, if_neg empty] at fails
    exact field_misfit_flat _ _ _ _ (scanned.width.imp_right And.left) fails

theorem precision_misfit_flat (p : Parts) (scanned : Scanned p) (start : Nat) (misfit : Misfit Flaw)
    (fails : p.precisionValue start = .error misfit) : Flat misfit.flaw.shows := by
  rw [Parts.precisionValue] at fails
  cases written : p.precision with
  | none =>
      rw [written] at fails
      cases fails
  | some raw =>
      rw [written] at fails
      cases raw with
      | nil => cases fails
      | cons c tail => exact field_misfit_flat _ _ _ _ (scanned.precision _ written) fails

-- The letter is shown as it is found, and a line feed is not taken for one.
theorem parts_misfit_flat (p : Parts) (scanned : Scanned p) (start : Nat) (misfit : Misfit Flaw)
    (fails : p.directive start = .error misfit) : Flat misfit.flaw.shows := by
  rcases bind_refuses _ _ _ fails with width | ⟨_, _, fails⟩
  · exact width_misfit_flat p scanned start misfit width
  rcases bind_refuses _ _ _ fails with precision | ⟨_, _, letters⟩
  · exact precision_misfit_flat p scanned start misfit precision
  by_cases known : p.modifier = [] ∨ p.modifier = ['l'] ∨ p.modifier = ['L']
  · rw [if_pos known] at letters
    cases written : p.letter with
    | none =>
        rw [written] at letters
        cases letters
        exact nofun
    | some c =>
        rw [written] at letters
        dsimp only at letters
        cases meant : Pattern.conversion? c with
        | none =>
            rw [meant] at letters
            cases letters
            intro member
            cases List.mem_singleton.1 member
            exact scanned.letter written
        | some kind =>
            rw [meant] at letters
            cases letters
  · rw [if_neg known] at letters
    cases letters
    exact .letters scanned.modifier

theorem pattern_misfit_flat (s : Text) (misfit : Misfit Flaw) (fails : Pattern.read s = .error misfit) :
    Flat misfit.flaw.shows := by
  unfold Pattern.read at fails
  dsimp only at fails
  split at fails
  · cases fails
    exact nofun
  · rename_i afterPercent _
    split at fails
    · rename_i failed
      cases fails
      exact parts_misfit_flat _ (scan_scanned afterPercent) _ _ failed
    · split at fails <;> cases fails
      exact nofun

end Pattern

theorem failure_flat (strictness : Strictness) (body : Text) (cause : Cause)
    (fails : outcome strictness body = .error cause) : Flat cause.wording := by
  have gives := (gives_iff_outcome strictness body (.error cause)).2 fails
  generalize given : Except.error cause = result at gives
  cases gives with
  | plain | shaped => cases given
  | plainMisfit _ misfit _ refused | shapedMisfit _ _ misfit _ refused =>
      cases given
      exact .misfit _ misfit (.formula _ (formula_misfit_flat strictness _ misfit refused))
  | patternMisfit _ _ _ misfit _ _ refused =>
      cases given
      exact .misfit _ misfit (.pattern _ (pattern_misfit_flat _ misfit refused))

theorem report_flat (strictness : Strictness) (trailing : Text) (unclosed : Option Text)
    (slots : List Slot) (offset : Nat) (before : Text) (report : Report)
    (member : report ∈ reportsFrom (outcome strictness) (unclosedReport trailing unclosed) slots offset
      before) : Flat report.issue.cause.wording := by
  induction slots generalizing offset before with
  | nil =>
      cases unclosed with
      | none => cases member
      | some tail =>
          cases List.mem_singleton.1 member
          exact .append .literal (.number _)
  | cons slot rest hypothesis =>
      rcases report_cases _ _ slot rest offset before report member with ⟨cause, fails, rfl⟩ | later
      · exact failure_flat strictness slot.body cause fails
      · exact hypothesis _ _ later

-- What is said of an issue takes one line.
theorem issue_flat (settings : Settings) (s : Text) (issue : Issue)
    (member : issue ∈ (render settings s).issues) : Flat issue.cause.wording := by
  obtain ⟨offset, issues⟩ := (render_cut settings s).issues
  rw [issues] at member
  rcases List.mem_append.1 member with kept | cut
  · obtain ⟨report, reported, rfl⟩ := List.mem_map.1 kept
    exact report_flat settings.strictness _ _ _ 0 [] report (List.mem_filter.1 reported).1
  · split at cut
    · cases List.mem_singleton.1 cut
      exact .append .literal (.number settings.capacity)
    · cases cut

end ArithTemplate
