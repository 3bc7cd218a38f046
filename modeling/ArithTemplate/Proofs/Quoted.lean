import ArithTemplate.Text.Quoted

set_option autoImplicit false

namespace ArithTemplate.Text

-- The characters with a letter of their own behind the backslash.
def shortEscapes : List (Char × Char) :=
  [('\x00', '0'), ('\t', 't'), ('\n', 'n'), ('\r', 'r'), ('"', '"'), ('\\', '\\')]

inductive Escaped (c : Char) : Text → Prop where
  | short (letter : Char) (known : (c, letter) ∈ shortEscapes) : Escaped c ['\\', letter]
  | code : Escaped c (codePointEscape c)
  | plain (quote : c ≠ '"') (slash : c ≠ '\\') : Escaped c [c]

theorem escaped (c : Char) : Escaped c (escape c) := by
  unfold escape
  split
  · exact .short _ (by decide)
  · exact .short _ (by decide)
  · exact .short _ (by decide)
  · exact .short _ (by decide)
  · exact .short _ (by decide)
  · exact .short _ (by decide)
  · rename_i quote slash
    split
    · exact .code
    · exact .plain quote slash

theorem hex_digit_injective (m n : Nat) (low : m < 16) (low' : n < 16)
    (same : Nat.digitChar m = Nat.digitChar n) : m = n := by
  have distinct : ∀ a b : Fin 16, Nat.digitChar a = Nat.digitChar b → a = b := by decide
  exact congrArg Fin.val (distinct ⟨m, low⟩ ⟨n, low'⟩ same)

theorem hex_digits_more (n : Nat) (high : 16 ≤ n) :
    Nat.toDigits 16 n = Nat.toDigits 16 (n / 16) ++ [Nat.digitChar (n % 16)] :=
  Nat.toDigits_of_base_le (by decide) high

theorem hex_digits_single_iff (n : Nat) : (Nat.toDigits 16 n).length = 1 ↔ n < 16 := by
  constructor
  · intro single
    refine Nat.lt_of_not_le fun high => ?_
    have front : 0 < (Nat.toDigits 16 (n / 16)).length := Nat.length_toDigits_pos
    rw [hex_digits_more n high, List.length_append, List.length_singleton] at single
    omega
  · intro low
    rw [Nat.toDigits_of_lt_base low]
    rfl

-- The last digit is that of the remainder, and the digits in front of it are those of the quotient.
theorem hex_digits_injective (m n : Nat) (same : Nat.toDigits 16 m = Nat.toDigits 16 n) : m = n := by
  induction m using Nat.strongRecOn generalizing n with
  | _ m hypothesis =>
      have both : m < 16 ↔ n < 16 := by
        rw [← hex_digits_single_iff, ← hex_digits_single_iff, same]
      by_cases low : m < 16
      · have low' := both.1 low
        rw [Nat.toDigits_of_lt_base low, Nat.toDigits_of_lt_base low'] at same
        exact hex_digit_injective m n low low' (List.cons.inj same).1
      · have high := Nat.le_of_not_lt low
        have high' := Nat.le_of_not_lt fun low' => low (both.2 low')
        rw [hex_digits_more m high, hex_digits_more n high'] at same
        obtain ⟨front, last⟩ := List.append_inj' same rfl
        have quotient := hypothesis (m / 16) (by omega) (n / 16) front
        have remainder := hex_digit_injective (m % 16) (n % 16) (Nat.mod_lt m (by decide))
          (Nat.mod_lt n (by decide)) (List.cons.inj last).1
        omega

theorem hex_digits_closed (n : Nat) : '}' ∉ Nat.toDigits 16 n := by
  induction n using Nat.strongRecOn with
  | _ n hypothesis =>
      have digit : ∀ i : Fin 16, '}' ≠ Nat.digitChar i := by decide
      by_cases low : n < 16
      · rw [Nat.toDigits_of_lt_base low, List.mem_singleton]
        exact digit ⟨n, low⟩
      · have high := Nat.le_of_not_lt low
        rw [hex_digits_more n high, List.mem_append, List.mem_singleton]
        rintro (front | last)
        · exact hypothesis (n / 16) (by omega) front
        · exact digit ⟨n % 16, Nat.mod_lt n (by decide)⟩ last

theorem code_escape_unique (c d : Char) (rest rest' : Text)
    (same : codePointEscape c ++ rest = codePointEscape d ++ rest') : c = d ∧ rest = rest' := by
  have digits : Nat.toDigits 16 c.toNat ++ '}' :: rest = Nat.toDigits 16 d.toNat ++ '}' :: rest' := by
    simpa [codePointEscape] using same
  have left := (cut_eq_some_iff '}' _ _ rest).2 ⟨rfl, hex_digits_closed c.toNat⟩
  have right := (cut_eq_some_iff '}' _ _ rest').2 ⟨rfl, hex_digits_closed d.toNat⟩
  rw [digits, right] at left
  obtain ⟨number, behind⟩ := Prod.mk.inj (Option.some.inj left)
  exact ⟨Char.toNat_inj.1 (hex_digits_injective _ _ number).symm, behind.symm⟩

-- No escape is the beginning of another one, so a text of escapes falls apart in one way.
theorem escaped_unique (c d : Char) (s t rest rest' : Text) (left : Escaped c s) (right : Escaped d t)
    (same : s ++ rest = t ++ rest') : c = d ∧ rest = rest' := by
  have letters : ∀ p ∈ shortEscapes, p.2 ≠ 'u' ∧ ∀ q ∈ shortEscapes, p.2 = q.2 → p.1 = q.1 := by
    decide
  cases left with
  | short letter known =>
      cases right with
      | short letter' known' =>
          obtain ⟨-, same⟩ := List.cons.inj same
          obtain ⟨letter, rest⟩ := List.cons.inj same
          exact ⟨(letters _ known).2 _ known' letter, rest⟩
      | code =>
          obtain ⟨-, same⟩ := List.cons.inj same
          exact absurd (List.cons.inj same).1 (letters _ known).1
      | plain quote slash => exact absurd (List.cons.inj same).1.symm slash
  | code =>
      cases right with
      | short letter known =>
          obtain ⟨-, same⟩ := List.cons.inj same
          exact absurd (List.cons.inj same).1.symm (letters _ known).1
      | code => exact code_escape_unique c d rest rest' same
      | plain quote slash => exact absurd (List.cons.inj same).1.symm slash
  | plain quote slash =>
      cases right with
      | short letter known => exact absurd (List.cons.inj same).1 slash
      | code => exact absurd (List.cons.inj same).1 slash
      | plain quote' slash' => exact List.cons.inj same

theorem escaped_head (c : Char) (s : Text) (known : Escaped c s) : ∃ d tail, s = d :: tail ∧ d ≠ '"' := by
  cases known with
  | short letter known => exact ⟨'\\', _, rfl, by decide⟩
  | code => exact ⟨'\\', _, rfl, by decide⟩
  | plain quote slash => exact ⟨c, [], rfl, quote⟩

theorem escape_not_closing (c : Char) (rest rest' : Text) : escape c ++ rest ≠ '"' :: rest' := by
  obtain ⟨d, tail, shape, bare⟩ := escaped_head c _ (escaped c)
  rw [shape]
  exact fun same => bare (List.cons.inj same).1

theorem escapes_unique (s t rest rest' : Text)
    (same : s.flatMap escape ++ '"' :: rest = t.flatMap escape ++ '"' :: rest') :
    s = t ∧ rest = rest' := by
  induction s generalizing t with
  | nil =>
      cases t with
      | nil => exact ⟨rfl, (List.cons.inj same).2⟩
      | cons d t =>
          rw [List.flatMap_cons, List.append_assoc] at same
          exact absurd same.symm (escape_not_closing d _ _)
  | cons c s hypothesis =>
      cases t with
      | nil =>
          rw [List.flatMap_cons, List.append_assoc] at same
          exact absurd same (escape_not_closing c _ _)
      | cons d t =>
          rw [List.flatMap_cons, List.flatMap_cons, List.append_assoc, List.append_assoc] at same
          obtain ⟨rfl, later⟩ := escaped_unique c d _ _ _ _ (escaped c) (escaped d) same
          obtain ⟨rfl, behind⟩ := hypothesis t later
          exact ⟨rfl, behind⟩

theorem quoted_unique (s t rest rest' : Text) (same : quoted s ++ rest = quoted t ++ rest') :
    s = t ∧ rest = rest' := by
  refine escapes_unique s t rest rest' ?_
  simpa [quoted] using same

end ArithTemplate.Text
