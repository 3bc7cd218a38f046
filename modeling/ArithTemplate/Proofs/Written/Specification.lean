import ArithTemplate.Pattern.Reading
import ArithTemplate.Proofs.Results
import ArithTemplate.Proofs.Written.Number

set_option autoImplicit false

open ArithTemplate.Pattern (Parts isFlag isLengthLetter fieldSpan precisionSpan letterSpan fieldValue)

namespace ArithTemplate.Written

-- The grammar of directives, a type for each part. The number of a field is limited, not its length.
def flagMarks : List Char := ['-', '+', ' ', '#', '0']

structure Width extends SomeDigits where
  leading : text.head? ≠ some '0'
  limited : Numeral.value text ≤ 512

structure Precision extends Digits where
  limited : Numeral.value text ≤ 512

inductive Modifier where
  | small
  | capital
deriving DecidableEq

structure Letter where
  conversion : Conversion
  upper : Bool
deriving DecidableEq

structure Specification where
  flags : Text
  flagged : ∀ c ∈ flags, c ∈ flagMarks
  width : Option Width
  precision : Option Precision
  modifier : Option Modifier
  letter : Letter

def widthText : Option Width → Text
  | none => []
  | some width => width.text

def pointText : Option Text → Text
  | none => []
  | some digits => '.' :: digits

def modifierText : Option Modifier → Text
  | none => []
  | some .small => ['l']
  | some .capital => ['L']

def Letter.char : Letter → Char
  | ⟨.fixed, false⟩ => 'f'
  | ⟨.fixed, true⟩ => 'F'
  | ⟨.scientific, false⟩ => 'e'
  | ⟨.scientific, true⟩ => 'E'
  | ⟨.general, false⟩ => 'g'
  | ⟨.general, true⟩ => 'G'

def partsText (p : Parts) : Text :=
  p.flags ++ (p.width ++ (pointText p.precision ++ (p.modifier ++ p.letter.toList)))

namespace Specification

variable (d : Specification)

def parts : Parts :=
  ⟨d.flags, widthText d.width, d.precision.map fun digits => digits.text, modifierText d.modifier,
    some d.letter.char⟩

def text : Text := '%' :: partsText d.parts

-- A precision that is absent is six, one without digits is zero.
def directive : Directive where
  leftAlign := decide ('-' ∈ d.flags)
  plus := decide ('+' ∈ d.flags)
  space := decide (' ' ∈ d.flags)
  zeroPad := decide ('0' ∈ d.flags)
  alternate := decide ('#' ∈ d.flags)
  width := Numeral.value (widthText d.width)
  precision :=
    match d.precision with
    | none => 6
    | some digits => Numeral.value digits.text
  conversion := d.letter.conversion
  upper := d.letter.upper

end Specification

theorem flag_iff (c : Char) : isFlag c = true ↔ c ∈ flagMarks := by
  simp [isFlag, flagMarks, or_assoc]

theorem letter_known (letter : Letter) :
    Pattern.conversion? letter.char = some (letter.conversion, letter.upper) := by
  obtain ⟨conversion, upper⟩ := letter
  cases conversion <;> cases upper <;> rfl

theorem known_letter (c : Char) (conversion : Conversion) (upper : Bool)
    (known : Pattern.conversion? c = some (conversion, upper)) :
    Letter.char ⟨conversion, upper⟩ = c := by
  unfold Pattern.conversion? at known
  split at known <;> cases known <;> rfl

theorem letter_char_injective (a b : Letter) (same : a.char = b.char) : a = b := by
  have known := letter_known a
  rw [same, letter_known b] at known
  cases a
  cases b
  cases known
  rfl

-- What the later parts of a directive may begin with.
def letterMarks : List Char := ['f', 'F', 'e', 'E', 'g', 'G']

def modifierHeads : List Char := 'l' :: 'L' :: letterMarks

def pointHeads : List Char := '.' :: modifierHeads

theorem letter_head (letter : Letter) (rest : Text) :
    ∀ c, (letter.char :: rest).head? = some c → c ∈ letterMarks := by
  intro c head
  obtain rfl : letter.char = c := by simpa using head
  obtain ⟨conversion, upper⟩ := letter
  cases conversion <;> cases upper <;> decide

theorem modifier_head (modifier : Option Modifier) (letter : Letter) (rest : Text) :
    ∀ c, (modifierText modifier ++ letter.char :: rest).head? = some c → c ∈ modifierHeads := by
  match modifier with
  | none =>
      intro c head
      exact List.mem_cons_of_mem _ (List.mem_cons_of_mem _ (letter_head letter rest c head))
  | some .small =>
      intro c head
      cases head
      decide
  | some .capital =>
      intro c head
      cases head
      decide

theorem point_head (precision : Option Text) (modifier : Option Modifier) (letter : Letter)
    (rest : Text) : ∀ c, (pointText precision ++ (modifierText modifier ++ letter.char :: rest)).head? =
      some c → c ∈ pointHeads := by
  cases precision with
  | none => exact fun c head => List.mem_cons_of_mem _ (modifier_head modifier letter rest c head)
  | some digits =>
      intro c head
      cases head
      exact List.mem_cons_self

theorem point_heads_plain : ∀ c ∈ pointHeads, c.isDigit = false ∧ c ≠ '*' ∧ isFlag c = false := by
  simp [pointHeads, modifierHeads, letterMarks, isFlag]

theorem modifier_heads_plain : ∀ c ∈ modifierHeads, c.isDigit = false ∧ c ≠ '*' ∧ c ≠ '.' := by
  simp [modifierHeads, letterMarks]

theorem letter_marks_plain : ∀ c ∈ letterMarks, isLengthLetter c = false ∧ c ≠ '\n' := by
  simp [letterMarks, isLengthLetter]

theorem field_span_digits (digits rest : Text) (inside : ∀ c ∈ digits, c.isDigit = true)
    (boundary : ∀ c, rest.head? = some c → c.isDigit = false ∧ c ≠ '*') :
    fieldSpan (digits ++ rest) = (digits, rest) := by
  have stop : ∀ c, rest.head? = some c → c.isDigit = false := fun c head => (boundary c head).1
  have other : ∀ tail, digits ++ rest ≠ '*' :: tail := by
    intro tail same
    cases digits with
    | nil => exact (boundary '*' (congrArg List.head? same)).2 rfl
    | cons c _ =>
        obtain ⟨rfl, _⟩ := List.cons.inj same
        exact absurd (inside '*' List.mem_cons_self) (by decide)
  rw [fieldSpan]
  · rw [Numeral.span, run_taken _ digits rest inside stop, run_dropped _ digits rest inside stop]
  · exact other

theorem precision_span_text (precision : Option Precision) (rest : Text)
    (boundary : ∀ c, rest.head? = some c → c.isDigit = false ∧ c ≠ '*' ∧ c ≠ '.') :
    precisionSpan (pointText (precision.map fun digits => digits.text) ++ rest) =
      (precision.map fun digits => digits.text, rest) := by
  have stop : ∀ c, rest.head? = some c → c.isDigit = false ∧ c ≠ '*' :=
    fun c head => ⟨(boundary c head).1, (boundary c head).2.1⟩
  cases precision with
  | none =>
      have other : ∀ tail, rest ≠ '.' :: tail := fun tail same =>
        (boundary '.' (congrArg List.head? same)).2.2 rfl
      simp only [Option.map_none, pointText, List.nil_append]
      rw [precisionSpan]
      exact other
  | some digits =>
      simp only [Option.map_some, pointText, List.cons_append, precisionSpan,
        field_span_digits digits.text rest digits.digits stop]

theorem modifier_letters (modifier : Option Modifier) :
    ∀ c ∈ modifierText modifier, isLengthLetter c = true := by
  match modifier with
  | none => simp [modifierText]
  | some .small => simp [modifierText, isLengthLetter]
  | some .capital => simp [modifierText, isLengthLetter]

theorem width_digits (width : Option Width) : ∀ c ∈ widthText width, c.isDigit = true := by
  cases width with
  | none => exact fun c member => absurd member List.not_mem_nil
  | some width => exact width.digits

theorem width_not_flag (width : Option Width) (rest : Text)
    (boundary : ∀ c, rest.head? = some c → isFlag c = false) :
    ∀ c, (widthText width ++ rest).head? = some c → isFlag c = false := by
  cases width with
  | none => exact boundary
  | some width =>
      intro c head
      cases shape : width.text with
      | nil => exact absurd shape width.nonempty
      | cons first tail =>
          have same : first = c := by simpa [widthText, shape] using head
          have digit := width.digits first (by simp [shape])
          have leading : first ≠ '0' := by simpa [shape] using width.leading
          rw [← same, Bool.eq_false_iff, ne_eq, flag_iff]
          intro flag
          simp only [flagMarks, List.mem_cons, List.not_mem_nil, or_false] at flag
          rcases flag with rfl | rfl | rfl | rfl | rfl
          · exact absurd digit (by decide)
          · exact absurd digit (by decide)
          · exact absurd digit (by decide)
          · exact absurd digit (by decide)
          · exact leading rfl

-- A directive that is written is scanned into its parts, whatever follows it.
theorem specification_scanned (d : Specification) (rest : Text) :
    Parts.scan (partsText d.parts ++ rest) = (d.parts, rest) := by
  let afterModifier := d.letter.char :: rest
  let afterPrecision := modifierText d.modifier ++ afterModifier
  let afterWidth := pointText (d.precision.map fun digits => digits.text) ++ afterPrecision
  have shape : partsText d.parts ++ rest = d.flags ++ (widthText d.width ++ afterWidth) := by
    simp [partsText, Specification.parts, afterWidth, afterPrecision, afterModifier]
  have letter : ∀ c, afterModifier.head? = some c → isLengthLetter c = false := fun c head =>
    (letter_marks_plain c (letter_head d.letter rest c head)).1
  have modifier := modifier_letters d.modifier
  have modifierStop : ∀ c, afterPrecision.head? = some c →
      c.isDigit = false ∧ c ≠ '*' ∧ c ≠ '.' := fun c head =>
    modifier_heads_plain c (modifier_head d.modifier d.letter rest c head)
  have pointStop : ∀ c, afterWidth.head? = some c →
      c.isDigit = false ∧ c ≠ '*' ∧ isFlag c = false := fun c head =>
    point_heads_plain c (point_head _ d.modifier d.letter rest c head)
  have flags : ∀ c ∈ d.flags, isFlag c = true := fun c member => (flag_iff c).2 (d.flagged c member)
  have flagsStop := width_not_flag d.width afterWidth fun c head => (pointStop c head).2.2
  have notBreak : d.letter.char ≠ '\n' :=
    (letter_marks_plain _ (letter_head d.letter rest _ rfl)).2
  rw [shape, Parts.scan, run_taken isFlag _ _ flags flagsStop, run_dropped isFlag _ _ flags flagsStop,
    field_span_digits _ _ (width_digits d.width) fun c head =>
      ⟨(pointStop c head).1, (pointStop c head).2.1⟩]
  dsimp only
  rw [precision_span_text d.precision afterPrecision modifierStop]
  dsimp only
  rw [run_taken isLengthLetter _ _ modifier letter, run_dropped isLengthLetter _ _ modifier letter]
  simp only [afterModifier, letterSpan, if_neg notBreak, Specification.parts]

theorem field_value_iff (field : Pattern.Field) (position value : Nat) (raw : Text) :
    fieldValue field position raw = .ok value ↔
      raw ≠ ['*'] ∧ Numeral.value raw ≤ 512 ∧ value = Numeral.value raw := by
  have word : 512 < Numeral.wordLimit := by decide
  unfold fieldValue
  by_cases star : raw = ['*']
  · simp [star]
  · by_cases beyond : Numeral.wordLimit ≤ Numeral.value raw
    · simp only [if_neg star, if_pos beyond]
      exact ⟨nofun, fun ⟨_, small, _⟩ => absurd small (by omega)⟩
    · by_cases above : Pattern.fieldLimit < Numeral.value raw
      · simp only [if_neg star, if_neg beyond, if_pos above]
        exact ⟨nofun, fun ⟨_, small, _⟩ => absurd small (Nat.not_le.2 above)⟩
      · simp only [if_neg star, if_neg beyond, if_neg above, Except.ok.injEq]
        exact ⟨fun same => ⟨star, Nat.not_lt.1 above, same.symm⟩, fun ⟨_, _, same⟩ => same.symm⟩

theorem digits_not_star (digits : Text) (inside : ∀ c ∈ digits, c.isDigit = true) : digits ≠ ['*'] := by
  rintro rfl
  exact absurd (inside '*' List.mem_cons_self) (by decide)

theorem width_valued (d : Specification) (start : Nat) :
    d.parts.widthValue start = .ok (Numeral.value (widthText d.width)) := by
  rw [Parts.widthValue]
  cases shape : d.width with
  | none => simp [Specification.parts, widthText, shape, Numeral.value]
  | some width =>
      have written : d.parts.width = width.text := by simp [Specification.parts, widthText, shape]
      rw [written, if_neg width.nonempty]
      exact (field_value_iff _ _ _ _).2 ⟨digits_not_star _ width.digits, width.limited, rfl⟩

theorem precision_valued (d : Specification) (start : Nat) :
    d.parts.precisionValue start = .ok d.directive.precision := by
  rw [Parts.precisionValue]
  cases shape : d.precision with
  | none => simp [Specification.parts, Specification.directive, shape, Pattern.defaultPrecision]
  | some digits =>
      have written : d.parts.precision = some digits.text := by simp [Specification.parts, shape]
      have meant : d.directive.precision = Numeral.value digits.text := by
        simp [Specification.directive, shape]
      rw [written, meant]
      cases spelled : digits.text with
      | nil => rfl
      | cons c tail =>
          have inside := spelled ▸ digits.digits
          exact (field_value_iff _ _ _ _).2 ⟨digits_not_star _ inside, spelled ▸ digits.limited, rfl⟩

theorem specification_directive (d : Specification) (start : Nat) :
    d.parts.directive start = .ok d.directive := by
  have modifier : modifierText d.modifier = [] ∨ modifierText d.modifier = ['l'] ∨
      modifierText d.modifier = ['L'] := by
    match d.modifier with
    | none => exact .inl rfl
    | some .small => exact .inr (.inl rfl)
    | some .capital => exact .inr (.inr rfl)
  rw [Parts.directive, width_valued, precision_valued]
  simp only [bind, Except.bind, Specification.parts, if_pos modifier, letter_known]
  simp [pure, Except.pure, Specification.directive, List.contains_eq_mem]

theorem field_span_text (s : Text) : (fieldSpan s).1 ++ (fieldSpan s).2 = s := by
  unfold fieldSpan
  split
  · rfl
  · exact List.takeWhile_append_dropWhile

theorem field_span_inside (s : Text) :
    (fieldSpan s).1 = ['*'] ∨ ∀ c ∈ (fieldSpan s).1, c.isDigit = true := by
  unfold fieldSpan
  split
  · exact .inl rfl
  · exact .inr (run_inside Char.isDigit s)

theorem precision_span_point (s : Text) :
    pointText (precisionSpan s).1 ++ (precisionSpan s).2 = s := by
  unfold precisionSpan
  split
  · simp [pointText, field_span_text]
  · rfl

theorem letter_span_text (s : Text) : (letterSpan s).1.toList ++ (letterSpan s).2 = s := by
  cases s with
  | nil => rfl
  | cons c rest =>
      rw [letterSpan]
      by_cases lineFeed : c = '\n'
      · rw [if_pos lineFeed]
        rfl
      · rw [if_neg lineFeed]
        rfl

theorem letter_span_line (s : Text) : (letterSpan s).1 ≠ some '\n' := by
  cases s with
  | nil => exact nofun
  | cons c rest =>
      rw [letterSpan]
      by_cases lineFeed : c = '\n'
      · rw [if_pos lineFeed]
        exact nofun
      · rw [if_neg lineFeed]
        exact fun same => lineFeed (Option.some.inj same)

theorem scan_text (s : Text) : partsText (Parts.scan s).1 ++ (Parts.scan s).2 = s := by
  let afterWidth := (fieldSpan (s.dropWhile isFlag)).2
  let afterPrecision := (precisionSpan afterWidth).2
  have letter := letter_span_text (afterPrecision.dropWhile isLengthLetter)
  have modifier := List.takeWhile_append_dropWhile (p := isLengthLetter) (l := afterPrecision)
  have precision := precision_span_point afterWidth
  have width := field_span_text (s.dropWhile isFlag)
  have flags := List.takeWhile_append_dropWhile (p := isFlag) (l := s)
  calc
    partsText (Parts.scan s).1 ++ (Parts.scan s).2
        = s.takeWhile isFlag ++ ((fieldSpan (s.dropWhile isFlag)).1 ++
            (pointText (precisionSpan afterWidth).1 ++ (afterPrecision.takeWhile isLengthLetter ++
              ((letterSpan (afterPrecision.dropWhile isLengthLetter)).1.toList ++
                (letterSpan (afterPrecision.dropWhile isLengthLetter)).2)))) := by
          simp [partsText, Parts.scan, afterWidth, afterPrecision]
    _ = s := by rw [letter, modifier, precision, width, flags]

-- What the parts are, whatever was scanned. A zero in front of a width has become a flag.
structure Scanned (p : Parts) : Prop where
  flags : ∀ c ∈ p.flags, c ∈ flagMarks
  width : p.width = ['*'] ∨ (∀ c ∈ p.width, c.isDigit = true) ∧ p.width.head? ≠ some '0'
  precision : ∀ raw, p.precision = some raw → raw = ['*'] ∨ ∀ c ∈ raw, c.isDigit = true
  modifier : ∀ c ∈ p.modifier, isLengthLetter c = true
  letter : p.letter ≠ some '\n'

theorem scan_scanned (s : Text) : Scanned (Parts.scan s).1 := by
  refine ⟨fun c member => (flag_iff c).1 (run_inside isFlag s c member), ?_, ?_, ?_, ?_⟩
  · rcases field_span_inside (s.dropWhile isFlag) with star | digits
    · exact .inl star
    · refine .inr ⟨digits, fun zero => ?_⟩
      have whole := field_span_text (s.dropWhile isFlag)
      have head : (s.dropWhile isFlag).head? = some '0' := by
        rw [← whole, List.head?_append]
        exact Option.or_of_isSome (Option.isSome_of_mem zero) |>.trans zero
      exact absurd (run_boundary isFlag s '0' head) (by decide)
  · intro raw found
    change (precisionSpan (fieldSpan (s.dropWhile isFlag)).2).1 = some raw at found
    unfold precisionSpan at found
    split at found
    · cases found
      exact field_span_inside _
    · cases found
  · exact run_inside isLengthLetter _
  · exact letter_span_line _

theorem width_written (p : Parts) (scanned : Scanned p) (start value : Nat)
    (given : p.widthValue start = .ok value) : ∃ width, widthText width = p.width := by
  by_cases empty : p.width = []
  · exact ⟨none, empty.symm⟩
  · rw [Parts.widthValue, if_neg empty] at given
    obtain ⟨star, limited, _⟩ := (field_value_iff _ _ _ _).1 given
    obtain ⟨digits, leading⟩ := scanned.width.resolve_left star
    exact ⟨some ⟨⟨⟨p.width, digits⟩, empty⟩, leading, limited⟩, rfl⟩

theorem precision_written (p : Parts) (scanned : Scanned p) (start value : Nat)
    (given : p.precisionValue start = .ok value) :
    ∃ precision : Option Precision, precision.map (fun digits => digits.text) = p.precision := by
  rw [Parts.precisionValue] at given
  cases written : p.precision with
  | none => exact ⟨none, rfl⟩
  | some raw =>
      rw [written] at given
      cases raw with
      | nil => exact ⟨some ⟨⟨[], List.forall_mem_nil _⟩, Nat.zero_le 512⟩, rfl⟩
      | cons c tail =>
          obtain ⟨star, limited, _⟩ := (field_value_iff _ _ _ _).1 given
          have digits := (scanned.precision _ written).resolve_left star
          exact ⟨some ⟨⟨c :: tail, digits⟩, limited⟩, rfl⟩

theorem modifier_written (s : Text) (known : s = [] ∨ s = ['l'] ∨ s = ['L']) :
    ∃ modifier, modifierText modifier = s := by
  rcases known with rfl | rfl | rfl
  · exact ⟨none, rfl⟩
  · exact ⟨some .small, rfl⟩
  · exact ⟨some .capital, rfl⟩

-- Parts that were scanned and make a directive are those of one that is written.
theorem directive_specification (p : Parts) (scanned : Scanned p) (start : Nat)
    (directive : Directive) (made : p.directive start = .ok directive) :
    ∃ d : Specification, d.parts = p ∧ d.directive = directive := by
  obtain ⟨width, widthGiven, letters⟩ := bind_gives _ _ _ made
  obtain ⟨precision, precisionGiven, letters⟩ := bind_gives _ _ _ letters
  obtain ⟨w, widthWritten⟩ := width_written p scanned start width widthGiven
  obtain ⟨q, precisionWritten⟩ := precision_written p scanned start precision precisionGiven
  by_cases known : p.modifier = [] ∨ p.modifier = ['l'] ∨ p.modifier = ['L']
  · obtain ⟨m, modifierWritten⟩ := modifier_written p.modifier known
    rw [if_pos known] at letters
    cases written : p.letter with
    | none =>
        rw [written] at letters
        cases letters
    | some c =>
        rw [written] at letters
        dsimp only at letters
        cases meant : Pattern.conversion? c with
        | none =>
            rw [meant] at letters
            cases letters
        | some kind =>
            obtain ⟨conversion, upper⟩ := kind
            have letter := known_letter c conversion upper meant
            let d : Specification := ⟨p.flags, scanned.flags, w, q, m, ⟨conversion, upper⟩⟩
            have same : d.parts = p := by
              simp [d, Specification.parts, widthWritten, precisionWritten, modifierWritten, letter,
                ← written]
            have again := specification_directive d start
            rw [same, made] at again
            exact ⟨d, same, (Except.ok.inj again).symm⟩
  · rw [if_neg known] at letters
    cases letters

theorem width_unique (a b : Option Width) (same : widthText a = widthText b) : a = b := by
  match a, b with
  | none, none => rfl
  | none, some b => exact absurd same.symm b.nonempty
  | some a, none => exact absurd same a.nonempty
  | some ⟨⟨⟨_, _⟩, _⟩, _, _⟩, some ⟨⟨⟨_, _⟩, _⟩, _, _⟩ =>
      cases same
      rfl

theorem precision_unique (a b : Option Precision)
    (same : a.map (fun digits => digits.text) = b.map fun digits => digits.text) : a = b := by
  match a, b with
  | none, none => rfl
  | none, some _ => cases same
  | some _, none => cases same
  | some ⟨⟨_, _⟩, _⟩, some ⟨⟨_, _⟩, _⟩ =>
      cases same
      rfl

theorem modifier_unique (a b : Option Modifier) (same : modifierText a = modifierText b) : a = b := by
  match a, b with
  | none, none | some .small, some .small | some .capital, some .capital => rfl
  | none, some .small | none, some .capital | some .small, none | some .small, some .capital
  | some .capital, none | some .capital, some .small => cases same

theorem parts_unique (a b : Specification) (same : a.parts = b.parts) : a = b := by
  obtain ⟨flags, width, precision, modifier, letter⟩ := Parts.mk.inj same
  have widths := width_unique _ _ width
  have precisions := precision_unique _ _ precision
  have modifiers := modifier_unique _ _ modifier
  have letters := letter_char_injective _ _ (Option.some.inj letter)
  cases a
  cases b
  subst flags widths precisions modifiers letters
  rfl

end ArithTemplate.Written
