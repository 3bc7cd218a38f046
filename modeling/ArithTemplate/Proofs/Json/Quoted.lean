import ArithTemplate.Json.Quoted

set_option autoImplicit false

namespace ArithTemplate.Json

-- The grammar of strings, between their quotes.
structure HexDigit where
  value : Fin 16
  capital : Bool

structure CodeUnit where
  a : HexDigit
  b : HexDigit
  c : HexDigit
  d : HexDigit

def HexDigit.char (h : HexDigit) : Char :=
  if h.capital then (Nat.digitChar h.value).toUpper else Nat.digitChar h.value

def CodeUnit.text (u : CodeUnit) : Text := ['\\', 'u', u.a.char, u.b.char, u.c.char, u.d.char]

def CodeUnit.number (u : CodeUnit) : Nat :=
  ((u.a.value * 16 + u.b.value) * 16 + u.c.value) * 16 + u.d.value

def escapes : List (Char × Char) :=
  [('"', '"'), ('\\', '\\'), ('/', '/'), ('b', '\x08'), ('f', '\x0c'), ('n', '\n'), ('r', '\r'),
    ('t', '\t')]

def IsHigh (n : Nat) : Prop := 0xD800 ≤ n ∧ n ≤ 0xDBFF

def IsLow (n : Nat) : Prop := 0xDC00 ≤ n ∧ n ≤ 0xDFFF

def ofPair (high low : Nat) : Char := .ofNat (0x10000 + (high - 0xD800) * 0x400 + (low - 0xDC00))

inductive Spelled : Text → Text → Prop where
  | done : Spelled [] []
  | plain (c : Char) (s content : Text) (visible : 0x20 ≤ c.toNat) (bare : c ≠ '"' ∧ c ≠ '\\')
      (rest : Spelled s content) : Spelled (c :: s) (c :: content)
  | short (letter c : Char) (s content : Text) (escape : (letter, c) ∈ escapes)
      (rest : Spelled s content) : Spelled ('\\' :: letter :: s) (c :: content)
  | code (u : CodeUnit) (s content : Text) (single : ¬ IsHigh u.number ∧ ¬ IsLow u.number)
      (rest : Spelled s content) : Spelled (u.text ++ s) (Char.ofNat u.number :: content)
  | pair (u v : CodeUnit) (s content : Text) (high : IsHigh u.number) (low : IsLow v.number)
      (rest : Spelled s content) : Spelled (u.text ++ (v.text ++ s)) (ofPair u.number v.number :: content)

def isPlain (c : Char) : Bool := decide (0x20 ≤ c.toNat) && (c != '"' && c != '\\')

-- Such characters stand for themselves.
theorem spelled_plain (s : Text) (plain : s.all isPlain = true) : Spelled s s := by
  induction s with
  | nil => exact .done
  | cons c rest hypothesis =>
      rw [List.all_cons, Bool.and_eq_true] at plain
      obtain ⟨visible, bare⟩ := Bool.and_eq_true_iff.1 plain.1
      obtain ⟨quote, slash⟩ := Bool.and_eq_true_iff.1 bare
      exact .plain c rest rest (of_decide_eq_true visible) ⟨bne_iff_ne.1 quote, bne_iff_ne.1 slash⟩
        (hypothesis plain.2)

theorem is_high_iff (n : Nat) : isHighSurrogate n = true ↔ IsHigh n := by
  simp [isHighSurrogate, IsHigh]

theorem is_low_iff (n : Nat) : isLowSurrogate n = true ↔ IsLow n := by
  simp [isLowSurrogate, IsLow]

theorem hex_digit_char (h : HexDigit) : hexDigit? h.char = some h.value := by
  obtain ⟨value, capital⟩ := h
  cases capital <;> (revert value; decide)

theorem digit_between (c : Char) (digit : c.isDigit = true) : 48 ≤ c.toNat ∧ c.toNat ≤ 57 := by
  simpa [Char.isDigit, Char.le_def, UInt32.le_iff_toNat_le] using digit

-- The three runs of characters that are hexadecimal digits.
theorem hex_digit_cases (c : Char) (v : Nat) (found : hexDigit? c = some v) :
    (48 ≤ c.toNat ∧ c.toNat ≤ 57 ∧ v = c.toNat - 48) ∨
      (97 ≤ c.toNat ∧ c.toNat ≤ 102 ∧ v = c.toNat - 97 + 10) ∨
      (65 ≤ c.toNat ∧ c.toNat ≤ 70 ∧ v = c.toNat - 65 + 10) := by
  rw [hexDigit?] at found
  split at found
  · rename_i digit
    cases found
    obtain ⟨least, most⟩ := digit_between c digit
    exact .inl ⟨least, most, rfl⟩
  · split at found
    · rename_i letter
      cases found
      exact .inr (.inl ⟨letter.1, letter.2, rfl⟩)
    · split at found
      · rename_i letter
        cases found
        exact .inr (.inr ⟨letter.1, letter.2, rfl⟩)
      · cases found

theorem hex_digit_of (c : Char) (v : Nat) (found : hexDigit? c = some v) :
    ∃ h : HexDigit, h.char = c ∧ h.value = v := by
  have digit : ∀ i : Fin 10, Nat.digitChar i = Char.ofNat (48 + i) := by decide
  have small : ∀ i : Fin 6, Nat.digitChar (10 + i) = Char.ofNat (97 + i) := by decide
  have capital : ∀ i : Fin 6, (Nat.digitChar (10 + i)).toUpper = Char.ofNat (65 + i) := by decide
  have whole : Char.ofNat c.toNat = c := Char.ofNat_toNat c
  have runs := hex_digit_cases c v found
  generalize c.toNat = n at whole runs
  subst whole
  rcases runs with ⟨least, most, rfl⟩ | ⟨least, most, rfl⟩ | ⟨least, most, rfl⟩
  · obtain ⟨i, rfl⟩ := Nat.exists_eq_add_of_le least
    exact ⟨⟨⟨i, by omega⟩, false⟩, digit ⟨i, by omega⟩, by dsimp only; omega⟩
  · obtain ⟨i, rfl⟩ := Nat.exists_eq_add_of_le least
    exact ⟨⟨⟨10 + i, by omega⟩, false⟩, small ⟨i, by omega⟩, by dsimp only; omega⟩
  · obtain ⟨i, rfl⟩ := Nat.exists_eq_add_of_le least
    exact ⟨⟨⟨10 + i, by omega⟩, true⟩, capital ⟨i, by omega⟩, by dsimp only; omega⟩

theorem code_unit_char (u : CodeUnit) :
    codeUnit? u.a.char u.b.char u.c.char u.d.char = some u.number := by
  simp only [codeUnit?, hex_digit_char]
  rfl

theorem code_unit_of (a b c d : Char) (n : Nat) (found : codeUnit? a b c d = some n) :
    ∃ u : CodeUnit, u.text = ['\\', 'u', a, b, c, d] ∧ u.number = n := by
  simp only [codeUnit?, Option.bind_eq_bind, Option.bind_eq_some_iff] at found
  obtain ⟨w, first, x, second, y, third, z, fourth, same⟩ := found
  obtain ⟨_, rfl, rfl⟩ := hex_digit_of a w first
  obtain ⟨_, rfl, rfl⟩ := hex_digit_of b x second
  obtain ⟨_, rfl, rfl⟩ := hex_digit_of c y third
  obtain ⟨_, rfl, rfl⟩ := hex_digit_of d z fourth
  exact ⟨⟨_, _, _, _⟩, rfl, Option.some.inj same⟩

theorem escape_iff (letter c : Char) : escaped? letter = some c ↔ (letter, c) ∈ escapes := by
  constructor
  · intro found
    rw [escaped?.eq_def] at found
    split at found <;> cases found <;> decide
  · intro escape
    simp only [escapes, List.mem_cons, List.not_mem_nil, or_false, Prod.mk.injEq] at escape
    rcases escape with ⟨rfl, rfl⟩ | ⟨rfl, rfl⟩ | ⟨rfl, rfl⟩ | ⟨rfl, rfl⟩ | ⟨rfl, rfl⟩ | ⟨rfl, rfl⟩ |
      ⟨rfl, rfl⟩ | ⟨rfl, rfl⟩ <;> rfl

-- One unit of a string as it is spelled.
inductive UnitSpelled : StringUnit → Text → Prop where
  | plain (c : Char) (visible : 0x20 ≤ c.toNat) (bare : c ≠ '"' ∧ c ≠ '\\') :
      UnitSpelled (.char c) [c]
  | short (letter c : Char) (escape : (letter, c) ∈ escapes) : UnitSpelled (.char c) ['\\', letter]
  | code (u : CodeUnit) : UnitSpelled (.code u.number) u.text

theorem code_spelled (n : Nat) (front : Text) (spelled : UnitSpelled (.code n) front) :
    ∃ u : CodeUnit, u.number = n ∧ u.text = front := by
  cases spelled with
  | code u => exact ⟨u, rfl, rfl⟩

theorem units_spelled (unit : StringUnit) (front s after : Text) (units : List StringUnit)
    (spelled : UnitSpelled unit front) (later : stringUnits s = some (units, after)) :
    stringUnits (front ++ s) = some (unit :: units, after) := by
  cases spelled with
  | plain c visible bare =>
      have shown : ¬ (c = '\\' ∨ c.toNat < 0x20) := by
        rintro (slash | control)
        · exact bare.2 slash
        · exact absurd visible (Nat.not_le.2 control)
      rw [List.singleton_append, stringUnits, if_neg shown, later]
      · rfl
      · exact bare.1
      · exact fun _ _ _ _ _ slash => absurd slash bare.2
      · exact fun _ _ slash => absurd slash bare.2
  | short letter c escape =>
      have known : escaped? letter = some c := (escape_iff letter c).2 escape
      change stringUnits ('\\' :: letter :: s) = _
      rw [stringUnits, known, later]
      · rfl
      · rintro _ _ _ _ _ rfl
        cases known
  | code u =>
      change stringUnits ('\\' :: 'u' :: u.a.char :: u.b.char :: u.c.char :: u.d.char :: s) = _
      rw [stringUnits, code_unit_char, later]
      rfl

theorem units_closed (s after : Text) (found : stringUnits s = some ([], after)) :
    s = '"' :: after := by
  rw [stringUnits.eq_def] at found
  split at found
  · cases found
  · cases found
    rfl
  · simp [Option.bind_eq_some_iff] at found
  · simp [Option.bind_eq_some_iff] at found
  · split at found
    · cases found
    · simp [Option.bind_eq_some_iff] at found

theorem units_first (s after : Text) (unit : StringUnit) (units : List StringUnit)
    (found : stringUnits s = some (unit :: units, after)) :
    ∃ front rest, s = front ++ rest ∧ UnitSpelled unit front ∧
      stringUnits rest = some (units, after) := by
  rw [stringUnits.eq_def] at found
  split at found
  · cases found
  · cases found
  · rename_i a b c d rest
    simp only [Option.bind_eq_bind, Option.bind_eq_some_iff] at found
    obtain ⟨n, code, _, later, same⟩ := found
    cases same
    obtain ⟨u, text, rfl⟩ := code_unit_of a b c d n code
    exact ⟨u.text, rest, by rw [text]; rfl, .code u, later⟩
  · rename_i letter rest _
    simp only [Option.bind_eq_bind, Option.bind_eq_some_iff] at found
    obtain ⟨c, escape, _, later, same⟩ := found
    cases same
    exact ⟨['\\', letter], rest, rfl, .short letter c ((escape_iff letter c).1 escape), later⟩
  · rename_i c rest quote _ _
    split at found
    · cases found
    · rename_i shown
      simp only [Option.bind_eq_bind, Option.bind_eq_some_iff] at found
      obtain ⟨_, later, same⟩ := found
      cases same
      have visible : 0x20 ≤ c.toNat := Nat.le_of_not_lt fun control => shown (.inr control)
      exact ⟨[c], rest, rfl, .plain c visible ⟨quote, fun slash => shown (.inl slash)⟩, later⟩

theorem join_single (n : Nat) (units : List StringUnit) (single : ¬ IsHigh n) :
    joinUnits (.code n :: units) =
      if isLowSurrogate n then none else (joinUnits units).map (Char.ofNat n :: ·) := by
  have notHigh : isHighSurrogate n = false := Bool.eq_false_iff.2 fun high =>
    single ((is_high_iff n).1 high)
  rw [joinUnits.eq_def]
  split
  · rename_i absurd
    cases absurd
  · rename_i absurd
    cases absurd
  · rename_i same
    cases same
    rw [notHigh, if_neg Bool.false_ne_true]
  · rename_i same
    cases same
    rw [notHigh, Bool.false_or]

theorem join_high (n : Nat) (units : List StringUnit) (content : Text) (high : IsHigh n) :
    joinUnits (.code n :: units) = some content ↔ ∃ m more later, IsLow m ∧
      units = .code m :: more ∧ joinUnits more = some later ∧ content = ofPair n m :: later := by
  have isHigh : isHighSurrogate n = true := (is_high_iff n).2 high
  rw [joinUnits.eq_def]
  split
  · rename_i absurd
    cases absurd
  · rename_i absurd
    cases absurd
  · rename_i low more same
    cases same
    rw [if_pos isHigh]
    constructor
    · intro joined
      split at joined
      · rename_i isLow
        obtain ⟨later, behind, rfl⟩ := Option.map_eq_some_iff.1 joined
        exact ⟨low, more, later, (is_low_iff low).1 isLow, rfl, behind, rfl⟩
      · cases joined
    · rintro ⟨_, _, later, isLow, same, behind, rfl⟩
      cases same
      rw [if_pos ((is_low_iff low).2 isLow), behind]
      rfl
  · rename_i alone same
    cases same
    rw [isHigh, Bool.true_or, if_pos rfl]
    constructor
    · intro absurd
      cases absurd
    · rintro ⟨m, more, _, _, same, _⟩
      exact (alone m more same).elim

-- A code unit is a character of its own, or it is the first of two.
theorem join_code (n : Nat) (units : List StringUnit) (content : Text) :
    joinUnits (.code n :: units) = some content ↔
      ((¬ IsHigh n ∧ ¬ IsLow n) ∧ ∃ later, joinUnits units = some later ∧
        content = Char.ofNat n :: later) ∨
      (IsHigh n ∧ ∃ m more later, IsLow m ∧ units = .code m :: more ∧ joinUnits more = some later ∧
        content = ofPair n m :: later) := by
  by_cases high : IsHigh n
  · simp only [join_high n units content high, high, not_true, false_and, false_or, true_and]
  · rw [join_single n units high]
    by_cases low : IsLow n
    · simp [high, low, (is_low_iff n).2 low]
    · have notLow : ¬ isLowSurrogate n = true := fun isLow => low ((is_low_iff n).1 isLow)
      rw [if_neg notLow, Option.map_eq_some_iff]
      simp [high, low, eq_comm]

theorem spelled_units (s content : Text) (spelled : Spelled s content) (rest : Text) :
    ∃ units, stringUnits (s ++ '"' :: rest) = some (units, rest) ∧ joinUnits units = some content := by
  induction spelled with
  | done => exact ⟨[], rfl, rfl⟩
  | plain c s content visible bare _ hypothesis =>
      obtain ⟨units, later, joined⟩ := hypothesis
      exact ⟨_, units_spelled _ [c] _ _ _ (.plain c visible bare) later, by rw [joinUnits, joined]; rfl⟩
  | short letter c s content escape _ hypothesis =>
      obtain ⟨units, later, joined⟩ := hypothesis
      exact ⟨_, units_spelled _ ['\\', letter] _ _ _ (.short letter c escape) later,
        by rw [joinUnits, joined]; rfl⟩
  | code u s content single _ hypothesis =>
      obtain ⟨units, later, joined⟩ := hypothesis
      refine ⟨_, ?_, (join_code _ _ _).2 (.inl ⟨single, _, joined, rfl⟩)⟩
      rw [List.append_assoc]
      exact units_spelled _ _ _ _ _ (.code u) later
  | pair u v s content high low _ hypothesis =>
      obtain ⟨units, later, joined⟩ := hypothesis
      refine ⟨_, ?_, (join_code _ _ _).2 (.inr ⟨high, _, _, _, low, rfl, joined, rfl⟩)⟩
      rw [List.append_assoc, List.append_assoc]
      exact units_spelled _ _ _ _ _ (.code u) (units_spelled _ _ _ _ _ (.code v) later)

-- The units are joined from the left, one or two at a time, and so is the spelling put together.
theorem units_spelled_of : ∀ (units : List StringUnit) (content s after : Text),
    joinUnits units = some content → stringUnits s = some (units, after) →
      ∃ spelling, s = spelling ++ '"' :: after ∧ Spelled spelling content
  | [], content, s, after, joined, found => by
      cases joined
      exact ⟨[], units_closed s after found, .done⟩
  | .char c :: units, content, s, after, joined, found => by
      rw [joinUnits, Option.map_eq_some_iff] at joined
      obtain ⟨later, joined', rfl⟩ := joined
      obtain ⟨front, rest, rfl, spelled, found'⟩ := units_first s after _ _ found
      obtain ⟨spelling, rfl, behind⟩ := units_spelled_of units later rest after joined' found'
      cases spelled with
      | plain _ visible bare => exact ⟨c :: spelling, rfl, .plain c _ _ visible bare behind⟩
      | short letter _ escape =>
          exact ⟨'\\' :: letter :: spelling, rfl, .short letter c _ _ escape behind⟩
  | .code n :: units, content, s, after, joined, found => by
      obtain ⟨front, rest, rfl, spelled, found'⟩ := units_first s after _ _ found
      obtain ⟨u, rfl, rfl⟩ := code_spelled n front spelled
      rcases (join_code _ _ _).1 joined with
        ⟨single, later, joined', rfl⟩ | ⟨high, m, more, later, low, rfl, joined', rfl⟩
      · obtain ⟨spelling, rfl, behind⟩ := units_spelled_of units later rest after joined' found'
        exact ⟨u.text ++ spelling, by simp, .code u _ _ single behind⟩
      · obtain ⟨front, rest, rfl, spelled', found''⟩ := units_first rest after _ _ found'
        obtain ⟨v, rfl, rfl⟩ := code_spelled m front spelled'
        obtain ⟨spelling, rfl, behind⟩ := units_spelled_of more later rest after joined' found''
        exact ⟨u.text ++ (v.text ++ spelling), by simp, .pair u v _ _ high low behind⟩

theorem string_iff (s content rest : Text) : string? s = some (content, rest) ↔
    ∃ spelling, s = spelling ++ '"' :: rest ∧ Spelled spelling content := by
  simp only [string?, Option.bind_eq_bind, Option.bind_eq_some_iff]
  constructor
  · rintro ⟨⟨units, after⟩, found, joined, same, given⟩
    cases given
    exact units_spelled_of units _ s _ same found
  · rintro ⟨spelling, rfl, spelled⟩
    obtain ⟨units, found, joined⟩ := spelled_units spelling content spelled rest
    exact ⟨(units, rest), found, content, joined, rfl⟩

end ArithTemplate.Json
