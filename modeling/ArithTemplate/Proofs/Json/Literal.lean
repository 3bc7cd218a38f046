import ArithTemplate.Proofs.Json.Members
import ArithTemplate.Proofs.Written.Number

set_option autoImplicit false

open ArithTemplate.Written (Stops)

namespace ArithTemplate.Json

-- The numbers of JSON among all number literals: no plus in front, digits before the point with no
-- zero in front of others, and digits behind it.
structure IsNumber (n : Written.Number) : Prop where
  unsigned : n.sign ≠ some .plus
  whole : n.mantissa.wholeDigits ≠ []
  unpadded : n.mantissa.wholeDigits.head? = some '0' → n.mantissa.wholeDigits = ['0']
  decimals : n.mantissa.decimals ≠ some []

theorem fraction_absent (whole s : Text) (absent : s.head? ≠ some '.') :
    fraction? s = some (none, s) ∧ Literal.fractionSpan whole s = (none, s) := by
  cases s with
  | nil => exact ⟨rfl, rfl⟩
  | cons c rest =>
      have different : c ≠ '.' := fun same => absent (congrArg some same)
      simp [fraction?, Literal.fractionSpan, different]

theorem fraction_iff (whole s after : Text) (fraction : Option Text) (digits : whole ≠ []) :
    fraction? s = some (fraction, after) ↔
      Literal.fractionSpan whole s = (fraction, after) ∧ fraction ≠ some [] := by
  by_cases point : s.head? = some '.'
  · obtain ⟨rest, rfl⟩ := List.head?_eq_some_iff.1 point
    have counts : ¬ (whole = [] ∧ (Numeral.span rest).1 = []) := fun none => digits none.1
    simp only [fraction?, Literal.fractionSpan, if_neg counts]
    by_cases none : (Numeral.span rest).1 = []
    · rw [if_pos none, none]
      constructor
      · intro absurd
        cases absurd
      · rintro ⟨same, some⟩
        cases same
        exact absurd rfl some
    · rw [if_neg none]
      constructor
      · intro same
        cases same
        exact ⟨rfl, fun absurd => none (Option.some.inj absurd)⟩
      · rintro ⟨same, _⟩
        rw [same]
  · obtain ⟨read, spanned⟩ := fraction_absent whole s point
    rw [read, spanned]
    constructor
    · intro same
      cases same
      exact ⟨rfl, (Option.some_ne_none []).symm⟩
    · rintro ⟨same, _⟩
      rw [same]

-- A letter that begins no exponent is not left for what follows.
theorem exponent_iff (s after : Text) (exponent : Option Exponent) :
    exponent? s = some (exponent, after) ↔ Literal.exponentSpan s = (exponent, after) ∧
      (exponent = none → ∀ c, after.head? = some c → ¬ (c = 'e' ∨ c = 'E')) := by
  cases s with
  | nil =>
      constructor
      · intro same
        cases same
        refine ⟨rfl, fun _ c head => ?_⟩
        cases head
      · rintro ⟨same, _⟩
        cases same
        rfl
  | cons letter rest =>
      simp only [exponent?, Literal.exponentSpan]
      by_cases mark : letter = 'e' ∨ letter = 'E'
      · rw [if_pos mark, if_pos mark]
        cases Literal.exponentDigits rest with
        | none =>
            constructor
            · intro absurd
              cases absurd
            · rintro ⟨same, unmarked⟩
              cases same
              exact absurd mark (unmarked rfl letter rfl)
        | some found =>
            constructor
            · intro same
              cases same
              exact ⟨rfl, fun missing => absurd missing (Option.some_ne_none found.1)⟩
            · rintro ⟨same, _⟩
              cases same
              rfl
      · rw [if_neg mark, if_neg mark]
        constructor
        · intro same
          cases same
          exact ⟨rfl, fun _ c head => Option.some.inj head ▸ mark⟩
        · rintro ⟨same, _⟩
          rw [same]

theorem literal_shape (s : Text) (unsigned : s.head? ≠ some '+') :
    literal? s =
      let (negative, digits) := Literal.sign s
      let (whole, afterWhole) := Numeral.span digits
      if whole = [] ∨ (whole.head? = some '0' ∧ whole ≠ ['0']) then none
      else (fraction? afterWhole).bind fun (fraction, afterFraction) =>
        (exponent? afterFraction).bind fun (exponent, rest) =>
          some (⟨negative, whole, fraction, exponent⟩, rest) := by
  unfold literal?
  split
  rename_i negative digits minus
  have signed : Literal.sign s = (negative, digits) := by
    rw [← minus, Literal.sign.eq_def]
    split
    · rfl
    · exact absurd rfl unsigned
    · rename_i noMinus _
      split
      · exact (noMinus _ rfl).elim
      · rfl
  rw [signed]
  rfl

theorem literal_plus (s : Text) : literal? ('+' :: s) = none := rfl

section Scanned

variable (s rest : Text) (l : Literal)

theorem literal_of_scan (scanned : Literal.scan s = some (l, rest)) (unsigned : s.head? ≠ some '+')
    (whole : l.whole ≠ []) (unpadded : l.whole.head? = some '0' → l.whole = ['0'])
    (decimals : l.fraction ≠ some [])
    (unmarked : l.exponent = none → ∀ c, rest.head? = some c → ¬ (c = 'e' ∨ c = 'E')) :
    literal? s = some (l, rest) := by
  rw [literal_shape s unsigned]
  simp only [Literal.scan] at scanned ⊢
  generalize Literal.sign s = signed at scanned ⊢
  generalize Numeral.span signed.2 = spanned at scanned ⊢
  cases fraction : Literal.fractionSpan spanned.1 spanned.2 with
  | mk decimals' afterFraction =>
      cases exponent : Literal.exponentSpan afterFraction with
      | mk power after =>
          simp only [fraction, exponent] at scanned
          split at scanned
          · cases scanned
          · cases scanned
            have good : ¬ (spanned.1 = [] ∨ (spanned.1.head? = some '0' ∧ spanned.1 ≠ ['0'])) := by
              rintro (none | ⟨zero, more⟩)
              · exact whole none
              · exact more (unpadded zero)
            rw [if_neg good, (fraction_iff _ _ _ _ whole).2 ⟨fraction, decimals⟩, Option.bind_some,
              (exponent_iff _ _ _).2 ⟨exponent, unmarked⟩]
            rfl

theorem scan_of_literal (found : literal? s = some (l, rest)) :
    Literal.scan s = some (l, rest) ∧ s.head? ≠ some '+' ∧ l.whole ≠ [] ∧
      (l.whole.head? = some '0' → l.whole = ['0']) ∧ l.fraction ≠ some [] := by
  have unsigned : s.head? ≠ some '+' := by
    intro plus
    obtain ⟨after, rfl⟩ := List.head?_eq_some_iff.1 plus
    cases (literal_plus after).symm.trans found
  rw [literal_shape s unsigned] at found
  dsimp only at found
  split at found
  · cases found
  · rename_i good
    obtain ⟨whole, unpadded⟩ := not_or.1 good
    obtain ⟨⟨fraction, afterFraction⟩, decimals, found⟩ := Option.bind_eq_some_iff.1 found
    obtain ⟨⟨exponent, after⟩, power, found⟩ := Option.bind_eq_some_iff.1 found
    cases found
    obtain ⟨decimals, some⟩ := (fraction_iff _ _ _ _ whole).1 decimals
    obtain ⟨power, _⟩ := (exponent_iff _ _ _).1 power
    refine ⟨?_, unsigned, whole, fun zero => ?_, some⟩
    · have counts : ¬ ((Numeral.span (Literal.sign s).2).1 = [] ∧ fraction = none) :=
        fun none => whole none.1
      simp only [Literal.scan, decimals, power, if_neg counts]
    · exact Decidable.not_not.1 fun more => unpadded ⟨zero, more⟩

end Scanned

theorem number_head (n : Written.Number) (number : IsNumber n) :
    ∃ c tail, n.text = c :: tail ∧ (c = '-' ∨ c.isDigit = true) := by
  obtain ⟨sign, mantissa, power⟩ := n
  match sign with
  | some .plus => exact absurd rfl number.unsigned
  | some .minus => exact ⟨'-', _, rfl, .inl rfl⟩
  | none =>
      cases mantissa with
      | point decimals => exact absurd rfl number.whole
      | whole digits decimals =>
          obtain ⟨c, tail, shape⟩ := List.exists_cons_of_ne_nil digits.nonempty
          refine ⟨c, tail ++ (Written.decimalsText decimals ++ Written.powerText power), ?_, .inr ?_⟩
          · simp [Written.Number.text, Written.signText, Written.Mantissa.text, shape]
          · exact digits.digits c (shape ▸ List.mem_cons_self)

theorem literal_of_number (n : Written.Number) (number : IsNumber n) (rest : Text)
    (stops : Stops rest) : literal? (n.text ++ rest) = some (n.literal, rest) := by
  have unsigned : (n.text ++ rest).head? ≠ some '+' := by
    obtain ⟨c, tail, shape, start⟩ := number_head n number
    rw [shape]
    rintro plus
    cases plus
    exact absurd start (by decide)
  refine literal_of_scan _ _ _ (Written.scan_of_text n rest stops) unsigned number.whole
    number.unpadded number.decimals fun _ c head mark => stops c head (.inr (.inr mark))

theorem number_of_literal (s rest : Text) (l : Literal) (found : literal? s = some (l, rest)) :
    ∃ n : Written.Number, IsNumber n ∧ s = n.text ++ rest ∧ n.literal = l := by
  obtain ⟨scanned, unsigned, whole, unpadded, decimals⟩ := scan_of_literal s rest l found
  obtain ⟨n, rfl, rfl⟩ := Written.number_of_scan s rest l scanned
  refine ⟨n, ⟨?_, whole, unpadded, decimals⟩, rfl, rfl⟩
  intro plus
  refine unsigned ?_
  rw [Written.Number.text, plus]
  rfl

theorem number_ok_iff (s rest : Text) (v : Number) : number s = .ok (v, rest) ↔
    ∃ l, literal? s = some (l, rest) ∧ numberOf l = .ok v := by
  rw [number]
  constructor
  · intro read
    split at read
    · cases read
    · rename_i l after found
      split at read
      · rename_i w value
        cases read
        exact ⟨l, found, value⟩
      · cases read
  · rintro ⟨l, found, value⟩
    simp only [found, value]

theorem number_read_iff (n : Written.Number) (isNumber : IsNumber n) (s rest : Text) (stops : Stops s)
    (v : Number) : number (n.text ++ s) = .ok (v, rest) ↔ numberOf n.literal = .ok v ∧ rest = s := by
  rw [number_ok_iff, literal_of_number n isNumber s stops]
  constructor
  · rintro ⟨l, same, value⟩
    cases same
    exact ⟨value, rfl⟩
  · rintro ⟨value, rfl⟩
    exact ⟨n.literal, rfl, value⟩

-- What stands behind a value does not make a number longer.
theorem mark_stops (s : Text)
    (marks : ∀ c, s.head? = some c → isBlank c = true ∨ c = ',' ∨ c = '}' ∨ c = ']') : Stops s := by
  intro c head
  rcases marks c head with blank | rfl | rfl | rfl
  · rcases (blank_iff c).1 blank with rfl | rfl | rfl | rfl <;> simp [Written.Continues]
  all_goals simp [Written.Continues]

theorem members_stop {Content : Type} {Value : Text → Content → Prop} (s rest : Text)
    (pairs : List (Text × Content)) (members : Members Value false s pairs rest) : Stops s :=
  mark_stops s fun c head =>
    (members_head Value s rest pairs members c head).imp_right (Or.imp_right .inl)

end ArithTemplate.Json
