import ArithTemplate.Decimal.Literal
import ArithTemplate.Proofs.Runs

set_option autoImplicit false

namespace ArithTemplate.Written

-- The grammar of number literals, a type for each of its parts. Nothing here says that a literal
-- takes as much as it can.
structure Digits where
  text : Text
  digits : ∀ c ∈ text, c.isDigit = true

structure SomeDigits extends Digits where
  nonempty : text ≠ []

inductive Sign where
  | plus
  | minus
deriving DecidableEq

inductive Mantissa where
  | whole (digits : SomeDigits) (decimals : Option Digits)
  | point (decimals : SomeDigits)

structure Power where
  capital : Bool
  sign : Option Sign
  digits : SomeDigits

structure Number where
  sign : Option Sign
  mantissa : Mantissa
  power : Option Power

def signText : Option Sign → Text
  | none => []
  | some .plus => ['+']
  | some .minus => ['-']

def decimalsText : Option Digits → Text
  | none => []
  | some digits => '.' :: digits.text

def Mantissa.text : Mantissa → Text
  | .whole digits decimals => digits.text ++ decimalsText decimals
  | .point decimals => '.' :: decimals.text

def Power.letter (p : Power) : Char := if p.capital then 'E' else 'e'

def powerText : Option Power → Text
  | none => []
  | some p => p.letter :: (signText p.sign ++ p.digits.text)

def Number.text (n : Number) : Text := signText n.sign ++ (n.mantissa.text ++ powerText n.power)

def isMinus (sign : Option Sign) : Bool := decide (sign = some .minus)

def Mantissa.wholeDigits : Mantissa → Text
  | .whole digits _ => digits.text
  | .point _ => []

def Mantissa.decimals : Mantissa → Option Text
  | .whole _ decimals => decimals.map Digits.text
  | .point decimals => some decimals.text

def Power.exponent (p : Power) : Exponent := ⟨isMinus p.sign, p.digits.text⟩

def Number.literal (n : Number) : Literal :=
  ⟨isMinus n.sign, n.mantissa.wholeDigits, n.mantissa.decimals, n.power.map Power.exponent⟩

def Number.value (n : Number) : Binary64 := n.literal.value

-- What would make a number longer when it stands right behind it. A sign would not: it belongs to
-- a number only in front or after the letter of the exponent.
def Continues (c : Char) : Prop := c.isDigit = true ∨ c = '.' ∨ c = 'e' ∨ c = 'E'

def Stops (s : Text) : Prop := ∀ c, s.head? = some c → ¬ Continues c

def Unsigned (s : Text) : Prop := ∀ c, s.head? = some c → c ≠ '+' ∧ c ≠ '-'

theorem stops_nil : Stops [] := by
  intro c head
  cases head

theorem stops_cons (c : Char) (s : Text) (stop : ¬ Continues c) : Stops (c :: s) := by
  intro d head
  cases head
  exact stop

theorem stops_digit (s : Text) (stops : Stops s) : ∀ c, s.head? = some c → c.isDigit = false := by
  intro c head
  simpa using fun digit => stops c head (.inl digit)

theorem digit_no_mark (c : Char) (digit : c.isDigit = true) :
    c ≠ '.' ∧ c ≠ 'e' ∧ c ≠ 'E' ∧ c ≠ '+' ∧ c ≠ '-' ∧ c ≠ '(' := by
  refine ⟨?_, ?_, ?_, ?_, ?_, ?_⟩ <;> (rintro rfl; exact absurd digit (by decide))

theorem digits_unsigned (digits : SomeDigits) (rest : Text) : Unsigned (digits.text ++ rest) := by
  intro c head
  cases shape : digits.text with
  | nil => exact absurd shape digits.nonempty
  | cons d tail =>
      have same : d = c := by simpa [shape] using head
      have digit := digits.digits d (by simp [shape])
      obtain ⟨_, _, _, notPlus, notMinus, _⟩ := digit_no_mark d digit
      exact same ▸ ⟨notPlus, notMinus⟩

theorem mantissa_unsigned (m : Mantissa) (rest : Text) : Unsigned (m.text ++ rest) := by
  cases m with
  | whole digits decimals =>
      simpa [Mantissa.text] using digits_unsigned digits (decimalsText decimals ++ rest)
  | point decimals =>
      intro c head
      have same : '.' = c := by simpa [Mantissa.text] using head
      subst same
      decide

theorem sign_unique (a b : Option Sign) (s t : Text) (left : Unsigned s) (right : Unsigned t)
    (same : signText a ++ s = signText b ++ t) : a = b ∧ s = t := by
  have heads := congrArg List.head? same
  match a, b with
  | none, none => exact ⟨rfl, same⟩
  | some .plus, some .plus => exact ⟨rfl, List.append_cancel_left same⟩
  | some .minus, some .minus => exact ⟨rfl, List.append_cancel_left same⟩
  | some .plus, some .minus => cases heads
  | some .minus, some .plus => cases heads
  | none, some .plus => exact absurd rfl (left '+' heads).1
  | none, some .minus => exact absurd rfl (left '-' heads).2
  | some .plus, none => exact absurd rfl (right '+' heads.symm).1
  | some .minus, none => exact absurd rfl (right '-' heads.symm).2

theorem sign_of_text (sign : Option Sign) (s : Text) (unsigned : Unsigned s) :
    Literal.sign (signText sign ++ s) = (isMinus sign, s) := by
  match sign with
  | some .plus => rfl
  | some .minus => rfl
  | none =>
      cases s with
      | nil => rfl
      | cons c rest =>
          obtain ⟨notPlus, notMinus⟩ := unsigned c rfl
          simp [signText, Literal.sign, isMinus, notPlus, notMinus]

theorem sign_splits (s : Text) : ∃ sign : Option Sign, s = signText sign ++ (Literal.sign s).2 ∧
    (Literal.sign s).1 = isMinus sign := by
  unfold Literal.sign
  split
  · exact ⟨some .minus, rfl, rfl⟩
  · exact ⟨some .plus, rfl, rfl⟩
  · exact ⟨none, rfl, rfl⟩

theorem span_digits (digits : Digits) (rest : Text)
    (boundary : ∀ c, rest.head? = some c → c.isDigit = false) :
    Numeral.span (digits.text ++ rest) = (digits.text, rest) := by
  simp only [Numeral.span, run_taken _ _ _ digits.digits boundary,
    run_dropped _ _ _ digits.digits boundary]

theorem span_splits (s : Text) : ∃ digits : Digits, s = digits.text ++ (Numeral.span s).2 ∧
    (Numeral.span s).1 = digits.text :=
  ⟨⟨s.takeWhile Char.isDigit, run_inside Char.isDigit s⟩, List.takeWhile_append_dropWhile.symm, rfl⟩

theorem fraction_of_text (whole rest : Text) (decimals : Option Digits)
    (boundary : ∀ c, rest.head? = some c → c.isDigit = false ∧ c ≠ '.')
    (counts : ∀ digits, decimals = some digits → whole ≠ [] ∨ digits.text ≠ []) :
    Literal.fractionSpan whole (decimalsText decimals ++ rest) = (decimals.map Digits.text, rest) := by
  cases decimals with
  | none =>
      cases rest with
      | nil => rfl
      | cons c tail => simp [decimalsText, Literal.fractionSpan, (boundary c rfl).2]
  | some digits =>
      have spanned := span_digits digits rest (fun c head => (boundary c head).1)
      have found : ¬ (whole = [] ∧ digits.text = []) := by
        rcases counts digits rfl with some | some
        · exact fun none => some none.1
        · exact fun none => some none.2
      simp only [decimalsText, List.cons_append, Literal.fractionSpan, spanned, if_neg found,
        Option.map_some]

theorem fraction_splits (whole s : Text) : ∃ decimals : Option Digits,
    s = decimalsText decimals ++ (Literal.fractionSpan whole s).2 ∧
      (Literal.fractionSpan whole s).1 = decimals.map Digits.text ∧
      (whole = [] → ∀ digits, decimals = some digits → digits.text ≠ []) := by
  unfold Literal.fractionSpan
  split
  · rename_i rest
    obtain ⟨digits, whole_eq, spanned⟩ := span_splits rest
    dsimp only
    split
    · exact ⟨none, rfl, rfl, fun _ _ absurd => by cases absurd⟩
    · rename_i counts
      refine ⟨some digits, ?_, by simp [spanned], ?_⟩
      · rw [decimalsText, List.cons_append, ← whole_eq]
      · rintro noWhole other same noDigits
        cases same
        exact counts ⟨noWhole, by rw [spanned, noDigits]⟩
  · exact ⟨none, rfl, rfl, fun _ _ absurd => by cases absurd⟩

-- Behind the digits of an exponent only a further digit counts.
theorem power_scanned (p : Power) (rest : Text)
    (boundary : ∀ c, rest.head? = some c → c.isDigit = false) :
    Literal.exponentSpan (powerText (some p) ++ rest) = (some p.exponent, rest) := by
  have letter : p.letter = 'e' ∨ p.letter = 'E' := by
    cases h : p.capital <;> simp [Power.letter, h]
  have signed := sign_of_text p.sign (p.digits.text ++ rest) (digits_unsigned p.digits rest)
  have spanned := span_digits p.digits.toDigits rest boundary
  have read : Literal.exponentDigits (signText p.sign ++ (p.digits.text ++ rest)) =
      some (p.exponent, rest) := by
    simp only [Literal.exponentDigits, signed, spanned, if_neg p.digits.nonempty, Power.exponent]
  simp only [powerText, List.cons_append, List.append_assoc, Literal.exponentSpan, if_pos letter, read]

theorem exponent_of_text (power : Option Power) (rest : Text) (stops : Stops rest) :
    Literal.exponentSpan (powerText power ++ rest) = (power.map Power.exponent, rest) := by
  cases power with
  | none =>
      cases rest with
      | nil => rfl
      | cons c tail =>
          have noLetter : ¬ (c = 'e' ∨ c = 'E') := fun letter => stops c rfl (.inr (.inr letter))
          simp only [powerText, List.nil_append, Literal.exponentSpan, if_neg noLetter, Option.map_none]
  | some p => exact power_scanned p rest (stops_digit rest stops)

theorem exponent_digits_splits (s rest : Text) (exponent : Exponent)
    (found : Literal.exponentDigits s = some (exponent, rest)) :
    ∃ (sign : Option Sign) (digits : SomeDigits), s = signText sign ++ (digits.text ++ rest) ∧
      exponent = ⟨isMinus sign, digits.text⟩ := by
  obtain ⟨sign, signEq, negative⟩ := sign_splits s
  obtain ⟨digits, digitsEq, spanned⟩ := span_splits (Literal.sign s).2
  simp only [Literal.exponentDigits] at found
  split at found
  · cases found
  · rename_i nonempty
    cases found
    rw [spanned] at nonempty
    refine ⟨sign, ⟨digits, nonempty⟩, ?_, by rw [negative, spanned]⟩
    rw [← digitsEq, ← signEq]

theorem exponent_splits (s : Text) : ∃ power : Option Power,
    s = powerText power ++ (Literal.exponentSpan s).2 ∧
      (Literal.exponentSpan s).1 = power.map Power.exponent := by
  unfold Literal.exponentSpan
  split
  · rename_i letter rest
    split
    · rename_i isLetter
      split
      · rename_i exponent after found
        obtain ⟨sign, digits, restEq, exponentEq⟩ := exponent_digits_splits rest after exponent found
        refine ⟨some ⟨decide (letter = 'E'), sign, digits⟩, ?_, by simp [Power.exponent, exponentEq]⟩
        have letterEq : letter = if decide (letter = 'E') then 'E' else 'e' := by
          rcases isLetter with rfl | rfl <;> decide
        simp only [powerText, Power.letter, List.cons_append, List.append_assoc, ← restEq, ← letterEq]
      · exact ⟨none, rfl, rfl⟩
    · exact ⟨none, rfl, rfl⟩
  · exact ⟨none, rfl, rfl⟩

theorem letter_boundary (p : Power) (rest : Text) :
    ∀ c, (powerText (some p) ++ rest).head? = some c → c.isDigit = false ∧ c ≠ '.' := by
  intro c head
  have same : p.letter = c := by simpa [powerText] using head
  cases capital : p.capital <;> simp [← same, Power.letter, capital]

theorem power_boundary (power : Option Power) (rest : Text) (stops : Stops rest) :
    ∀ c, (powerText power ++ rest).head? = some c → c.isDigit = false ∧ c ≠ '.' := by
  cases power with
  | none =>
      exact fun c head => ⟨stops_digit rest stops c head, fun point => stops c head (.inr (.inl point))⟩
  | some p => exact letter_boundary p rest

theorem decimals_boundary (decimals : Option Digits) (rest : Text)
    (boundary : ∀ c, rest.head? = some c → c.isDigit = false ∧ c ≠ '.') :
    ∀ c, (decimalsText decimals ++ rest).head? = some c → c.isDigit = false := by
  intro c head
  cases decimals with
  | none => exact (boundary c head).1
  | some digits =>
      have same : '.' = c := by simpa [decimalsText] using head
      exact same ▸ rfl

theorem mantissa_of_text (m : Mantissa) (rest : Text)
    (boundary : ∀ c, rest.head? = some c → c.isDigit = false ∧ c ≠ '.') :
    ∃ after, Numeral.span (m.text ++ rest) = (m.wholeDigits, after) ∧
      Literal.fractionSpan m.wholeDigits after = (m.decimals, rest) := by
  cases m with
  | whole digits decimals =>
      refine ⟨decimalsText decimals ++ rest, ?_, ?_⟩
      · rw [Mantissa.text, List.append_assoc]
        exact span_digits digits.toDigits _ (decimals_boundary decimals rest boundary)
      · exact fraction_of_text _ rest decimals boundary fun _ _ => .inl digits.nonempty
  | point decimals =>
      refine ⟨decimalsText (some decimals.toDigits) ++ rest, rfl, ?_⟩
      refine fraction_of_text [] rest (some decimals.toDigits) boundary fun digits same => .inr ?_
      exact Option.some.inj same ▸ decimals.nonempty

theorem mantissa_counts (m : Mantissa) : ¬ (m.wholeDigits = [] ∧ m.decimals = none) := by
  cases m with
  | whole digits decimals => exact fun absent => digits.nonempty absent.1
  | point decimals => exact fun absent => by cases absent.2

-- Scanning takes a written number whole if what follows does not continue it.
theorem scan_of_text (n : Number) (rest : Text) (stops : Stops rest) :
    Literal.scan (n.text ++ rest) = some (n.literal, rest) := by
  have signed := sign_of_text n.sign (n.mantissa.text ++ (powerText n.power ++ rest))
    (mantissa_unsigned n.mantissa _)
  obtain ⟨after, spanned, fraction⟩ :=
    mantissa_of_text n.mantissa (powerText n.power ++ rest) (power_boundary n.power rest stops)
  have power := exponent_of_text n.power rest stops
  simp only [Number.text, List.append_assoc, Literal.scan, signed, spanned, fraction,
    if_neg (mantissa_counts n.mantissa), power, Number.literal]

theorem mantissa_splits (s : Text) (found : ¬ ((Numeral.span s).1 = [] ∧
      (Literal.fractionSpan (Numeral.span s).1 (Numeral.span s).2).1 = none)) :
    ∃ m : Mantissa, s = m.text ++ (Literal.fractionSpan (Numeral.span s).1 (Numeral.span s).2).2 ∧
      (Numeral.span s).1 = m.wholeDigits ∧
      (Literal.fractionSpan (Numeral.span s).1 (Numeral.span s).2).1 = m.decimals := by
  obtain ⟨whole, wholeEq, spanned⟩ := span_splits s
  obtain ⟨decimals, decimalsEq, fraction, counts⟩ :=
    fraction_splits (Numeral.span s).1 (Numeral.span s).2
  by_cases some : whole.text = []
  · have noWhole : (Numeral.span s).1 = [] := spanned.trans some
    cases decimals with
    | none => exact absurd ⟨noWhole, fraction⟩ found
    | some digits =>
        refine ⟨.point ⟨digits, counts noWhole digits rfl⟩, ?_, noWhole, fraction⟩
        rw [some, List.nil_append] at wholeEq
        exact wholeEq.trans decimalsEq
  · refine ⟨.whole ⟨whole, some⟩ decimals, ?_, spanned, fraction⟩
    rw [Mantissa.text, List.append_assoc, ← decimalsEq]
    exact wholeEq

theorem number_of_scan (s rest : Text) (literal : Literal)
    (scanned : Literal.scan s = some (literal, rest)) :
    ∃ n : Number, s = n.text ++ rest ∧ n.literal = literal := by
  obtain ⟨sign, signEq, negative⟩ := sign_splits s
  simp only [Literal.scan] at scanned
  split at scanned
  · cases scanned
  · rename_i found
    obtain ⟨m, mantissaEq, whole, decimals⟩ := mantissa_splits (Literal.sign s).2 found
    obtain ⟨power, powerEq, exponent⟩ := exponent_splits
      (Literal.fractionSpan (Numeral.span (Literal.sign s).2).1 (Numeral.span (Literal.sign s).2).2).2
    have pair := Prod.mk.inj (Option.some.inj scanned)
    refine ⟨⟨sign, m, power⟩, ?_, ?_⟩
    · rw [Number.text, List.append_assoc, List.append_assoc, ← pair.2, ← powerEq, ← mantissaEq]
      exact signEq
    · rw [← pair.1, negative, decimals, exponent, whole, Number.literal]

theorem text_injective_digits (a b : Digits) (same : a.text = b.text) : a = b := by
  cases a
  cases b
  cases same
  rfl

theorem text_injective_some (a b : SomeDigits) (same : a.text = b.text) : a = b := by
  cases a
  cases b
  cases text_injective_digits _ _ same
  rfl

theorem mantissa_of_digits (a b : Mantissa) (whole : a.wholeDigits = b.wholeDigits)
    (decimals : a.decimals = b.decimals) : a = b := by
  cases a with
  | whole digits places =>
      cases b with
      | whole digits' places' =>
          cases text_injective_some digits digits' whole
          have same : places = places' := by
            cases places <;> cases places' <;> simp [Mantissa.decimals] at decimals
            · rfl
            · rw [text_injective_digits _ _ decimals]
          rw [same]
      | point places' => exact absurd whole digits.nonempty
  | point places =>
      cases b with
      | whole digits' places' => exact absurd whole.symm digits'.nonempty
      | point places' => rw [text_injective_some places places' (Option.some.inj decimals)]

theorem power_of_text (a b : Option Power) (same : powerText a = powerText b) : a = b := by
  cases a with
  | none =>
      cases b with
      | none => rfl
      | some q => cases same
  | some p =>
      cases b with
      | none => cases same
      | some q =>
          obtain ⟨letter, signed⟩ := List.cons.inj same
          have unsigned (digits : SomeDigits) : Unsigned digits.text := by
            simpa using digits_unsigned digits []
          obtain ⟨sign, digits⟩ := sign_unique _ _ _ _ (unsigned p.digits) (unsigned q.digits) signed
          have capital : p.capital = q.capital := by
            cases hp : p.capital <;> cases hq : q.capital <;> simp [Power.letter, hp, hq] at letter ⊢
          cases p
          cases q
          cases capital
          cases sign
          cases text_injective_some _ _ digits
          rfl

-- The longest-match rule decides nothing: what does not continue a number can only stand behind one.
theorem number_unique (a b : Number) (s t : Text) (left : Stops s) (right : Stops t)
    (same : a.text ++ s = b.text ++ t) : a = b ∧ s = t := by
  have scanned := scan_of_text a s left
  rw [same, scan_of_text b t right] at scanned
  have pair := Prod.mk.inj (Option.some.inj scanned)
  have rest : s = t := pair.2.symm
  have literal := pair.1
  refine ⟨?_, rest⟩
  rw [rest] at same
  have texts := List.append_cancel_right same
  obtain ⟨sign, unsigned⟩ := sign_unique _ _ _ _ (mantissa_unsigned a.mantissa _)
    (mantissa_unsigned b.mantissa _) texts
  have mantissa := mantissa_of_digits a.mantissa b.mantissa
    (congrArg Literal.whole literal).symm (congrArg Literal.fraction literal).symm
  rw [mantissa] at unsigned
  have power := power_of_text _ _ (List.append_cancel_left unsigned)
  cases a
  cases b
  cases sign
  cases mantissa
  cases power
  rfl

-- What a number literal may hold besides digits.
def literalMarks : List Char := ['.', '+', '-', 'e', 'E']

theorem sign_marks (sign : Option Sign) :
    ∀ c ∈ signText sign, c.isDigit = true ∨ c ∈ literalMarks := by
  match sign with
  | none => exact nofun
  | some .plus => exact List.forall_mem_singleton.2 (by decide)
  | some .minus => exact List.forall_mem_singleton.2 (by decide)

theorem number_marks (n : Number) : ∀ c ∈ n.text, c.isDigit = true ∨ c ∈ literalMarks := by
  have digits (d : Digits) : ∀ c ∈ d.text, c.isDigit = true ∨ c ∈ literalMarks :=
    fun c member => .inl (d.digits c member)
  have point (d : Digits) : ∀ c ∈ '.' :: d.text, c.isDigit = true ∨ c ∈ literalMarks :=
    List.forall_mem_cons.2 ⟨by decide, digits d⟩
  obtain ⟨sign, mantissa, power⟩ := n
  refine List.forall_mem_append.2 ⟨sign_marks sign, List.forall_mem_append.2 ⟨?_, ?_⟩⟩
  · cases mantissa with
    | point decimals => exact point decimals.toDigits
    | whole whole decimals =>
        refine List.forall_mem_append.2 ⟨digits whole.toDigits, ?_⟩
        cases decimals with
        | none => exact nofun
        | some decimals => exact point decimals
  · cases power with
    | none => exact nofun
    | some power =>
        refine List.forall_mem_cons.2 ⟨?_, List.forall_mem_append.2
          ⟨sign_marks power.sign, digits power.digits.toDigits⟩⟩
        rw [Power.letter]
        split <;> decide

-- What the rendering of a number may hold besides digits and letters.
def numberMarks : List Char := ['.', '+', '-']

theorem number_characters (n : Number) :
    ∀ c ∈ n.text, c.isAlphanum = true ∨ c ∈ numberMarks := by
  intro c member
  rcases number_marks n c member with digit | mark
  · exact .inl (by simp [Char.isAlphanum, digit])
  · simp only [literalMarks, List.mem_cons, List.not_mem_nil, or_false] at mark
    rcases mark with rfl | rfl | rfl | rfl | rfl <;> decide

end ArithTemplate.Written
