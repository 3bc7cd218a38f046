import ArithTemplate.Json.Settings
import ArithTemplate.Proofs.Json.Number
import ArithTemplate.Proofs.Json.Value

set_option autoImplicit false

open ArithTemplate.Written (Stops)

namespace ArithTemplate

def Strictness.name : Strictness → String
  | .strict => "strict"
  | .lenient => "lenient"

namespace Json

-- A capacity is written in digits alone and fits a word.
def IsCapacity (v : Value) (n : ℕ) : Prop :=
  ∃ digits : Written.SomeDigits, v = .number ⟨none, .whole digits none, none⟩ ∧
    Numeral.value digits.text = n ∧ n < Numeral.wordLimit

inductive IsMode : Value → Strictness → Prop where
  | named (mode : Strictness) : IsMode (.string mode.name.toList) mode
  | only (mode : Strictness) : IsMode (.object [(mode.name.toList, .null)]) mode

theorem field_iff (name : Text) (field : Field) :
    field? name = some field ↔ name = field.name.toList := by
  rw [field?]
  constructor
  · intro known
    split at known
    · rename_i same
      cases known
      exact same
    · split at known
      · rename_i same
        cases known
        exact same
      · cases known
  · rintro rfl
    cases field <;> rfl

theorem strictness_iff (name : Text) (mode : Strictness) :
    strictness? name = some mode ↔ name = mode.name.toList := by
  rw [strictness?]
  constructor
  · intro known
    split at known
    · rename_i same
      cases known
      exact same
    · split at known
      · rename_i same
        cases known
        exact same
      · cases known
  · rintro rfl
    cases mode <;> rfl

section Capacity

theorem integer_natural_iff (negative : Bool) (word n : ℕ) :
    integer negative word = .natural n ↔ negative = false ∧ word = n := by
  rw [integer]
  split
  · rename_i positive
    simp [positive]
  · rename_i negative
    split <;> simp [negative]

theorem natural_iff (m : Written.Number) (isNumber : IsNumber m) (n : ℕ) :
    numberOf m.literal = .ok (.natural n) ↔ IsCapacity (.number m) n := by
  rw [number_of_eq]
  constructor
  · intro read
    split at read
    · rename_i plain
      obtain ⟨fraction, exponent, kept⟩ := plain
      obtain ⟨positive, word⟩ := (integer_natural_iff _ _ _).1 (Except.ok.inj read)
      have small := gather_below m.literal.whole 0 (by decide)
      have value := gather_kept _ _ kept
      rw [Nat.zero_mul, Nat.zero_add] at value
      rw [word] at small value
      obtain ⟨sign, mantissa, power⟩ := m
      have unsigned : sign = none := by
        match sign with
        | none => rfl
        | some .plus => exact absurd rfl isNumber.unsigned
        | some .minus => cases positive
      have unscaled : power = none := Option.map_eq_none_iff.1 exponent
      subst unsigned unscaled
      cases mantissa with
      | point decimals => exact absurd rfl isNumber.whole
      | whole digits decimals =>
          have integral : decimals = none := Option.map_eq_none_iff.1 fraction
          subst integral
          exact ⟨digits, rfl, value.symm, small⟩
    · obtain ⟨x, _, absurd⟩ := (map_ok_iff _ _ _).1 read
      cases absurd
  · rintro ⟨digits, same, rfl, small⟩
    cases same
    have fits : gather digits.text 0 = (Numeral.value digits.text, 0) := by
      rw [gather_fits _ _ (by rwa [Nat.zero_mul, Nat.zero_add]), Nat.zero_mul, Nat.zero_add]
    change (if none = none ∧ none = none ∧ (gather digits.text 0).2 = 0 then
      Except.ok (integer false (gather digits.text 0).1) else _) = _
    rw [fits, if_pos ⟨rfl, rfl, rfl⟩]
    rfl

theorem capacity_ok_iff (s rest : Text) (n : ℕ) : capacity s = .ok (n, rest) ↔
    startsNumber (skipBlank s) = true ∧ number (skipBlank s) = .ok (.natural n, rest) := by
  rw [capacity]
  constructor
  · intro read
    split at read
    · rename_i starts
      split at read
      · cases read
      · rename_i natural
        cases read
        exact ⟨starts, natural⟩
      · cases read
      · cases read
    · cases read
  · rintro ⟨starts, natural⟩
    rw [if_pos starts, natural]

theorem capacity_iff (blank text s rest : Text) (v : Value) (n : ℕ) (blanks : Blank blank)
    (shown : Shows text v) (stops : Stops s) :
    capacity (blank ++ (text ++ s)) = .ok (n, rest) ↔ IsCapacity v n ∧ rest = s := by
  rw [capacity_ok_iff, skip_value text v shown blank s blanks, starts_number_iff text v shown]
  constructor
  · rintro ⟨⟨m, rfl⟩, read⟩
    obtain ⟨rfl, isNumber⟩ := number_shown text m shown
    obtain ⟨value, same⟩ := (number_read_iff m isNumber s rest stops _).1 read
    exact ⟨(natural_iff m isNumber n).1 value, same⟩
  · rintro ⟨fits, rfl⟩
    obtain ⟨digits, rfl, _⟩ := id fits
    obtain ⟨rfl, isNumber⟩ := number_shown text _ shown
    exact ⟨⟨_, rfl⟩, (number_read_iff _ isNumber _ _ stops _).2 ⟨(natural_iff _ isNumber n).2 fits, rfl⟩⟩

theorem capacity_shown (s rest : Text) (n : ℕ) (read : capacity s = .ok (n, rest)) :
    ∃ blank text v, s = blank ++ (text ++ rest) ∧ Blank blank ∧ Shows text v := by
  obtain ⟨_, read⟩ := (capacity_ok_iff s rest n).1 read
  obtain ⟨l, found, _⟩ := (number_ok_iff _ _ _).1 read
  obtain ⟨m, isNumber, spelled, _⟩ := number_of_literal _ _ _ found
  obtain ⟨blank, blanks, split⟩ := skip_splits s
  exact ⟨blank, m.text, .number m, spelled ▸ split, blanks, .number m isNumber⟩

end Capacity

section Mode

theorem null_ok_iff (s rest : Text) : null s = .ok rest ↔
    ∃ blank, Blank blank ∧ s = blank ++ 'n' :: 'u' :: 'l' :: 'l' :: rest := by
  rw [null]
  constructor
  · intro read
    obtain ⟨blank, blanks, whole⟩ := skip_splits s
    split at read
    · rename_i shape
      cases read
      exact ⟨blank, blanks, shape ▸ whole⟩
    · cases read
  · rintro ⟨blank, blanks, rfl⟩
    rw [skip_to blank _ _ blanks rfl]
    rfl

theorem null_iff (blank text s rest : Text) (v : Value) (blanks : Blank blank) (shown : Shows text v) :
    null (blank ++ (text ++ s)) = .ok rest ↔ v = .null ∧ rest = s := by
  rw [null, skip_value text v shown blank s blanks]
  constructor
  · intro read
    split at read
    · rename_i shape
      cases read
      obtain rfl := (led_cases v _ (value_led text v shown s _ _ shape)).1 rfl
      cases shown
      cases shape
      exact ⟨rfl, rfl⟩
    · cases read
  · rintro ⟨rfl, rfl⟩
    cases shown
    rfl

theorem mode_name_iff (s rest : Text) (m : Strictness) :
    modeName s = .ok (m, rest) ↔ string s = .ok (m.name.toList, rest) := by
  rw [modeName]
  constructor
  · intro read
    obtain ⟨⟨name, after⟩, named, known⟩ := bind_gives _ _ _ read
    dsimp only at known
    split at known
    · rename_i mode same
      cases known
      rw [← (strictness_iff name m).1 same]
      exact named
    · cases known
  · intro named
    simp only [named, bind, Except.bind, (strictness_iff _ m).2 rfl]
    rfl

def closeMode (m : Strictness) (s : Text) : Except Misread (Strictness × Text) :=
  match skipBlank s with
  | '}' :: after => .ok (m, after)
  | other => .error ⟨.malformed, other⟩

def onlyMode (inside : Text) : Except Misread (Strictness × Text) :=
  modeName inside >>= fun found => colon found.2 >>= fun afterColon =>
    null afterColon >>= fun afterNull => closeMode found.1 afterNull

theorem close_mode_iff (s rest : Text) (m m' : Strictness) : closeMode m s = .ok (m', rest) ↔
    m' = m ∧ ∃ blank, Blank blank ∧ s = blank ++ '}' :: rest := by
  rw [closeMode]
  constructor
  · intro read
    obtain ⟨blank, blanks, whole⟩ := skip_splits s
    split at read
    · rename_i shape
      cases read
      exact ⟨rfl, blank, blanks, shape ▸ whole⟩
    · cases read
  · rintro ⟨rfl, blank, blanks, rfl⟩
    rw [skip_to blank _ _ blanks rfl]
    rfl

theorem only_mode_iff (inside rest : Text) (m : Strictness) : onlyMode inside = .ok (m, rest) ↔
    ∃ afterName afterColon blank, modeName inside = .ok (m, afterName) ∧ colon afterName = .ok afterColon ∧
      Blank blank ∧ null afterColon = .ok (blank ++ '}' :: rest) := by
  constructor
  · intro read
    obtain ⟨⟨m', afterName⟩, name, read⟩ := bind_gives _ _ _ read
    obtain ⟨afterColon, colon, read⟩ := bind_gives _ _ _ read
    obtain ⟨afterNull, nothing, read⟩ := bind_gives _ _ _ read
    obtain ⟨rfl, blank, blanks, rfl⟩ := (close_mode_iff _ _ _ _).1 read
    exact ⟨afterName, afterColon, blank, name, colon, blanks, nothing⟩
  · rintro ⟨afterName, afterColon, blank, name, colon, blanks, nothing⟩
    rw [onlyMode, name]
    change (Json.colon afterName >>= _) = _
    rw [colon]
    change (null afterColon >>= _) = _
    rw [nothing]
    exact (close_mode_iff _ _ m m).2 ⟨rfl, blank, blanks, rfl⟩

theorem mode_string (blank inside : Text) (blanks : Blank blank) :
    mode (blank ++ '"' :: inside) = modeName inside := by
  rw [mode, skip_to blank _ _ blanks rfl]
  rfl

theorem mode_object (before front inside : Text) (beforeBlank : Blank before) (frontBlank : Blank front) :
    mode (before ++ '{' :: (front ++ '"' :: inside)) = onlyMode inside := by
  have first := skip_to before '{' (front ++ '"' :: inside) beforeBlank rfl
  have second := skip_to front '"' inside frontBlank rfl
  simp only [mode, first, second]
  rfl

-- A mode is a name in quotes, or an object with this name and nothing under it.
theorem mode_cases (s rest : Text) (m : Strictness) (read : mode s = .ok (m, rest)) :
    (∃ blank inside, Blank blank ∧ s = blank ++ '"' :: inside) ∨
      ∃ before front inside, Blank before ∧ Blank front ∧ s = before ++ '{' :: (front ++ '"' :: inside) := by
  obtain ⟨before, beforeBlank, whole⟩ := skip_splits s
  rw [mode] at read
  split at read
  · rename_i inside shape
    exact .inl ⟨before, inside, beforeBlank, shape ▸ whole⟩
  · rename_i afterBrace shape
    obtain ⟨front, frontBlank, whole'⟩ := skip_splits afterBrace
    split at read
    · rename_i inside shape'
      refine .inr ⟨before, front, inside, beforeBlank, frontBlank, ?_⟩
      rw [whole, shape, whole', shape']
    · cases read
  · cases read

theorem visible_unique (blank blank' s t : Text) (c d : Char) (blanks : Blank blank)
    (blanks' : Blank blank') (visible : isBlank c = false) (visible' : isBlank d = false)
    (same : blank ++ c :: s = blank' ++ d :: t) : c = d ∧ s = t := by
  have tails := congrArg skipBlank same
  rw [skip_to blank c s blanks visible, skip_to blank' d t blanks' visible'] at tails
  exact List.cons.inj tails

theorem mode_name_reads (spelling name s rest : Text) (m : Strictness) (spelled : Spelled spelling name) :
    modeName (spelling ++ '"' :: s) = .ok (m, rest) ↔ name = m.name.toList ∧ rest = s := by
  rw [mode_name_iff, (string_ok_iff _ name s).2 ⟨spelling, rfl, spelled⟩]
  simp [eq_comm]

theorem members_closed_iff (s after rest : Text) (pairs : List (Text × Value))
    (members : Members Shows false s pairs after) :
    (∃ blank, Blank blank ∧ s = blank ++ '}' :: rest) ↔ pairs = [] ∧ rest = after := by
  cases members with
  | close _ blank _ blanks =>
      constructor
      · rintro ⟨blank', blanks', same⟩
        exact ⟨rfl, (visible_unique _ _ _ _ _ _ blanks blanks' rfl rfl same).2.symm⟩
      · rintro ⟨_, rfl⟩
        exact ⟨blank, blanks, rfl⟩
  | member _ _ _ _ _ _ _ _ _ _ _ opening _ _ _ _ _ =>
      cases opening with
      | later before behind blanks _ =>
          constructor
          · rintro ⟨blank', blanks', same⟩
            rw [List.append_assoc, List.cons_append] at same
            cases (visible_unique _ _ _ _ _ _ blanks blanks' rfl rfl same).1
          · rintro ⟨absurd, _⟩
            cases absurd

theorem only_mode_reads (blank inside s rest : Text) (pairs : List (Text × Value)) (m : Strictness)
    (blanks : Blank blank) (members : Members Shows true inside pairs s) :
    mode (blank ++ '{' :: inside) = .ok (m, rest) ↔ pairs = [(m.name.toList, .null)] ∧ rest = s := by
  cases members with
  | close _ front _ frontBlank =>
      refine ⟨fun read => ?_, fun only => absurd only.1 (List.cons_ne_nil _ _).symm⟩
      rcases mode_cases _ _ _ read with
        ⟨before, _, beforeBlank, same⟩ | ⟨before, front', _, beforeBlank, frontBlank', same⟩
      · cases (visible_unique _ _ _ _ _ _ blanks beforeBlank rfl rfl same).1
      · have inner := (visible_unique _ _ _ _ _ _ blanks beforeBlank rfl rfl same).2
        cases (visible_unique _ _ _ _ _ _ frontBlank frontBlank' rfl rfl inner).1
  | member _ front spelling name before after value behind _ content more opening spelled beforeBlank
      afterBlank shown later =>
      cases opening with
      | first front frontBlank =>
          have colon_read := (colon_ok_iff (before ++ ':' :: (after ++ (value ++ behind))) _).2
            ⟨before, beforeBlank, rfl⟩
          rw [mode_object blank front _ blanks frontBlank, only_mode_iff]
          constructor
          · rintro ⟨afterName, afterColon, blank', named, colon, blanks', nothing⟩
            obtain ⟨same, rfl⟩ := (mode_name_reads _ name _ _ m spelled).1 named
            cases colon_read.symm.trans colon
            obtain ⟨rfl, rest_eq⟩ := (null_iff after value behind _ content afterBlank shown).1 nothing
            obtain ⟨rfl, closed⟩ :=
              (members_closed_iff behind s rest more later).1 ⟨blank', blanks', rest_eq.symm⟩
            exact ⟨same ▸ rfl, closed⟩
          · rintro ⟨same, rfl⟩
            cases same
            obtain ⟨blank', blanks', closed⟩ := (members_closed_iff behind rest rest [] later).2 ⟨rfl, rfl⟩
            exact ⟨_, _, blank', (mode_name_reads _ _ _ _ m spelled).2 ⟨rfl, rfl⟩, colon_read, blanks',
              (null_iff after value behind _ .null afterBlank shown).2 ⟨rfl, closed.symm⟩⟩

theorem mode_led (blank text s rest : Text) (v : Value) (m : Strictness) (blanks : Blank blank)
    (shown : Shows text v) (read : mode (blank ++ (text ++ s)) = .ok (m, rest)) :
    (∃ content, v = .string content) ∨ ∃ pairs, v = .object pairs := by
  have whole := skip_value text v shown blank s blanks
  rcases mode_cases _ _ _ read with
    ⟨before, inside, beforeBlank, same⟩ | ⟨before, front, inside, beforeBlank, _, same⟩
  · rw [same, skip_to before _ _ beforeBlank rfl] at whole
    exact .inl ((led_cases v _ (value_led text v shown s _ _ whole.symm)).2.1 rfl)
  · rw [same, skip_to before _ _ beforeBlank rfl] at whole
    exact .inr ((led_cases v _ (value_led text v shown s _ _ whole.symm)).2.2 rfl)

theorem mode_iff (blank text s rest : Text) (v : Value) (m : Strictness) (blanks : Blank blank)
    (shown : Shows text v) : mode (blank ++ (text ++ s)) = .ok (m, rest) ↔ IsMode v m ∧ rest = s := by
  have named (spelling content : Text) (spelled : Spelled spelling content) :
      mode (blank ++ (('"' :: (spelling ++ ['"'])) ++ s)) = .ok (m, rest) ↔
        content = m.name.toList ∧ rest = s := by
    rw [List.cons_append, List.append_assoc, mode_string blank _ blanks]
    exact mode_name_reads spelling content s rest m spelled
  have only (inside : Text) (pairs : List (Text × Value)) (members : Members Shows true inside pairs []) :
      mode (blank ++ (('{' :: inside) ++ s)) = .ok (m, rest) ↔
        pairs = [(m.name.toList, .null)] ∧ rest = s :=
    only_mode_reads blank _ s rest pairs m blanks (members_extend Shows true inside [] s pairs members)
  constructor
  · intro read
    rcases mode_led blank text s rest v m blanks shown read with ⟨content, rfl⟩ | ⟨pairs, rfl⟩
    · cases shown with
      | string spelling _ spelled =>
          obtain ⟨rfl, same⟩ := (named spelling content spelled).1 read
          exact ⟨.named m, same⟩
    · cases shown with
      | object inside _ members =>
          obtain ⟨rfl, same⟩ := (only inside pairs members).1 read
          exact ⟨.only m, same⟩
  · rintro ⟨is, same⟩
    cases is with
    | named m =>
        cases shown with
        | string spelling _ spelled => exact (named spelling _ spelled).2 ⟨rfl, same⟩
    | only m =>
        cases shown with
        | object inside _ members => exact (only inside _ members).2 ⟨rfl, same⟩

theorem mode_shown (s rest : Text) (m : Strictness) (read : mode s = .ok (m, rest)) :
    ∃ blank text v, s = blank ++ (text ++ rest) ∧ Blank blank ∧ Shows text v := by
  rcases mode_cases s rest m read with
    ⟨before, inside, beforeBlank, rfl⟩ | ⟨before, front, inside, beforeBlank, frontBlank, rfl⟩
  · rw [mode_string before inside beforeBlank, mode_name_iff] at read
    obtain ⟨spelling, rfl, spelled⟩ := (string_ok_iff _ _ _).1 read
    refine ⟨before, _, _, ?_, beforeBlank, .string spelling _ spelled⟩
    rw [List.cons_append, List.append_assoc]
    rfl
  · rw [mode_object before front inside beforeBlank frontBlank, only_mode_iff] at read
    obtain ⟨afterName, afterColon, closing, name, colon, closingBlank, nothing⟩ := read
    obtain ⟨spelling, rfl, spelled⟩ := (string_ok_iff _ _ _).1 ((mode_name_iff _ _ _).1 name)
    obtain ⟨behind, behindBlank, rfl⟩ := (colon_ok_iff _ _).1 colon
    obtain ⟨after, afterBlank, rfl⟩ := (null_ok_iff _ _).1 nothing
    have close : Members Shows false (closing ++ ['}']) [] [] := .close false closing [] closingBlank
    have members := Members.member true front spelling _ behind after _ _ [] .null [] (.first front frontBlank)
      spelled behindBlank afterBlank .null close
    refine ⟨before, _, _, ?_, beforeBlank, .object _ _ members⟩
    simp

end Mode

end Json

end ArithTemplate
