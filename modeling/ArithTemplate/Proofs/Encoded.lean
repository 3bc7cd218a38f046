import ArithTemplate.Text.Basic

set_option autoImplicit false

namespace ArithTemplate.Text

def encoded (s : Text) : List UInt8 := s.flatMap String.utf8EncodeChar

def byte (n : Nat) : UInt8 := UInt8.ofNat n

section Bytes

variable (m n : Nat) (left : m < 256) (right : n < 256)

include left right

theorem byte_less : byte m < byte n ↔ m < n := by
  rw [byte, byte, UInt8.lt_iff_toNat_lt, UInt8.toNat_ofNat', UInt8.toNat_ofNat',
    Nat.mod_eq_of_lt left, Nat.mod_eq_of_lt right]

theorem byte_same : byte m = byte n ↔ m = n := by
  rw [byte, byte, ← UInt8.toNat_inj, UInt8.toNat_ofNat', UInt8.toNat_ofNat', Nat.mod_eq_of_lt left,
    Nat.mod_eq_of_lt right]

end Bytes

theorem char_most (c : Char) : c.val.toNat < 0x110000 := by
  rcases c.valid with low | high
  · exact Nat.lt_trans low (by decide)
  · exact high.2

-- One to four bytes, of six bits each but for the first.
theorem char_bytes (c : Char) :
    let n := c.val.toNat
    (n < 0x80 ∧ String.utf8EncodeChar c = [byte n]) ∨
      (0x80 ≤ n ∧ n < 0x800 ∧ String.utf8EncodeChar c = [byte (n / 64 + 192), byte (n % 64 + 128)]) ∨
      (0x800 ≤ n ∧ n < 0x10000 ∧ String.utf8EncodeChar c =
        [byte (n / 4096 + 224), byte (n / 64 % 64 + 128), byte (n % 64 + 128)]) ∨
      (0x10000 ≤ n ∧ String.utf8EncodeChar c =
        [byte (n / 262144 + 240), byte (n / 4096 % 64 + 128), byte (n / 64 % 64 + 128),
          byte (n % 64 + 128)]) := by
  intro n
  have most : n < 0x110000 := char_most c
  unfold String.utf8EncodeChar
  by_cases one : n ≤ 0x7f
  · exact .inl ⟨by omega, if_pos one⟩
  · by_cases two : n ≤ 0x7ff
    · rw [← Nat.mod_eq_of_lt (show n / 64 < 32 by omega)]
      exact .inr (.inl ⟨by omega, by omega, (if_neg one).trans (if_pos two)⟩)
    · by_cases three : n ≤ 0xffff
      · rw [← Nat.mod_eq_of_lt (show n / 4096 < 16 by omega)]
        exact .inr (.inr (.inl ⟨by omega, by omega, (if_neg one).trans ((if_neg two).trans (if_pos three))⟩))
      · rw [← Nat.mod_eq_of_lt (show n / 262144 < 8 by omega)]
        exact .inr (.inr (.inr ⟨by omega, (if_neg one).trans ((if_neg two).trans (if_neg three))⟩))

-- The first digit to the base of 64 in which two numbers differ decides.
theorem digits_less (m n : Nat) (less : m < n) : m / 262144 < n / 262144 ∨
    (m / 262144 = n / 262144 ∧ (m / 4096 % 64 < n / 4096 % 64 ∨
      (m / 4096 % 64 = n / 4096 % 64 ∧ (m / 64 % 64 < n / 64 % 64 ∨
        (m / 64 % 64 = n / 64 % 64 ∧ m % 64 < n % 64))))) := by
  have step (a b : Nat) (less : a < b) : a / 64 < b / 64 ∨ (a / 64 = b / 64 ∧ a % 64 < b % 64) := by
    omega
  have second (k : Nat) : k / 64 / 64 = k / 4096 := Nat.div_div_eq_div_mul k 64 64
  have third (k : Nat) : k / 4096 / 64 = k / 262144 := Nat.div_div_eq_div_mul k 4096 64
  have same (a b : Nat) (equal : a = b) : a / 64 = b / 64 ∧ a % 64 = b % 64 := by
    rw [equal]
    exact ⟨rfl, rfl⟩
  rcases step m n less with less | ⟨equal, last⟩
  · rcases step _ _ less with less | ⟨equal, last⟩
    · rw [second, second] at less
      have first := step _ _ less
      rw [third, third] at first
      exact first.imp id fun both => ⟨both.1, .inl both.2⟩
    · rw [second, second] at equal
      have before := same _ _ equal
      rw [third, third] at before
      exact .inr ⟨before.1, .inr ⟨before.2, .inl last⟩⟩
  · have before := same _ _ equal
    rw [second, second] at before
    have first := same _ _ before.1
    rw [third, third] at first
    exact .inr ⟨first.1, .inr ⟨first.2, .inr ⟨before.2, last⟩⟩⟩

-- Of two characters the smaller has the smaller bytes, whatever stands behind them.
theorem char_less (c d : Char) (less : c < d) (s t : List UInt8) :
    String.utf8EncodeChar c ++ s < String.utf8EncodeChar d ++ t := by
  have order : c.val.toNat < d.val.toNat := less
  have most := char_most d
  have left := char_bytes c
  have right := char_bytes d
  generalize c.val.toNat = m at order left
  generalize d.val.toNat = n at order most right
  dsimp only at left right
  have digits := digits_less m n order
  rcases left with ⟨_, left⟩ | ⟨_, _, left⟩ | ⟨_, _, left⟩ | ⟨_, left⟩ <;>
    rcases right with ⟨_, right⟩ | ⟨_, _, right⟩ | ⟨_, _, right⟩ | ⟨_, right⟩ <;>
    rw [left, right] <;>
    simp (disch := omega) only [List.cons_append, List.nil_append, List.cons_lt_cons_iff, byte_less,
      byte_same] <;>
    omega

theorem encoded_cons (c : Char) (s : Text) : encoded (c :: s) = String.utf8EncodeChar c ++ encoded s :=
  List.flatMap_cons

-- The order of characters is that of bytes.
theorem encoded_increases (s t : Text) (less : s < t) : encoded s < encoded t := by
  induction s generalizing t with
  | nil =>
      cases t with
      | nil => cases less
      | cons d rest =>
          obtain ⟨first, more, bytes⟩ := List.exists_cons_of_ne_nil (String.utf8EncodeChar_ne_nil (c := d))
          rw [encoded_cons, bytes]
          exact List.nil_lt_cons _ _
  | cons c front hypothesis =>
      cases t with
      | nil => cases less
      | cons d rest =>
          rw [encoded_cons, encoded_cons]
          rcases List.cons_lt_cons_iff.1 less with before | ⟨rfl, behind⟩
          · exact char_less c d before _ _
          · exact List.append_left_lt (hypothesis rest behind)

end ArithTemplate.Text
