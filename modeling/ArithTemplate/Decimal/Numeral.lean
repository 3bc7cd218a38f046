import ArithTemplate.Text.Basic

set_option autoImplicit false

/-!
Natural numbers as decimal digits, most significant first.
-/

namespace ArithTemplate.Numeral

def wordLimit : Nat := 0x10000000000000000

-- The digits of `n` without leading zeros; zero is one digit.
def ofNat (n : Nat) : Text := Nat.toDigits 10 n

def count (n : Nat) : Nat :=
  if n < 10000000000000000 then (ofNat n).length else count (n / 10000000000000000) + 16
termination_by n
decreasing_by omega

def value (digits : Text) : Nat :=
  digits.foldl (fun n c => 10 * n + (c.toNat - '0'.toNat)) 0

-- A number in two parts, the lower of which still grows: `high * weight + low`.
structure Blocks where
  high : Nat
  weight : Nat
  low : Nat
deriving DecidableEq, Repr

namespace Blocks

def number (b : Blocks) : Nat := b.high * b.weight + b.low

-- The weight at which the lower part is joined to the higher one.
def fullWeight : Nat := Nat.pow 10 400

def push (b : Blocks) (c : Char) : Blocks :=
  let digit := c.toNat - '0'.toNat
  if b.weight < fullWeight then ⟨b.high, 10 * b.weight, 10 * b.low + digit⟩
  else ⟨b.number, 10, digit⟩

theorem number_push (b : Blocks) (c : Char) :
    (b.push c).number = 10 * b.number + (c.toNat - '0'.toNat) := by
  unfold push
  split
  · simp only [number, Nat.mul_add, Nat.mul_left_comm b.high, Nat.add_assoc]
  · simp [number, Nat.mul_comm]

theorem number_foldl_push (digits : Text) (b : Blocks) :
    (digits.foldl push b).number =
      digits.foldl (fun n c => 10 * n + (c.toNat - '0'.toNat)) b.number := by
  induction digits generalizing b with
  | nil => rfl
  | cons c rest ih => simp only [List.foldl_cons, ih, number_push]

end Blocks

-- The number a run of digits stands for, put together in blocks, which keeps the time of a long
-- run near its length.
def valueInBlocks (digits : Text) : Nat := (digits.foldl Blocks.push ⟨0, 1, 0⟩).number

theorem valueInBlocks_eq_value (digits : Text) : valueInBlocks digits = value digits :=
  Blocks.number_foldl_push digits ⟨0, 1, 0⟩

def padded (width n : Nat) : Text :=
  let digits := ofNat n
  List.replicate (width - digits.length) '0' ++ digits

theorem isDigit_of_mem_ofNat {c : Char} {n : Nat} (h : c ∈ ofNat n) : c.isDigit = true :=
  Nat.isDigit_of_mem_toDigits (by decide) (by decide) h

theorem length_ofNat_div (n : Nat) (h : 10 ≤ n) :
    (ofNat n).length = (ofNat (n / 10)).length + 1 := by
  simp [ofNat, Nat.toDigits_of_base_le (by decide : 1 < 10) h]

theorem length_ofNat_div_pow (k n : Nat) (h : Nat.pow 10 k ≤ n) :
    (ofNat n).length = (ofNat (n / Nat.pow 10 k)).length + k := by
  induction k with
  | zero => simp [Nat.pow]
  | succ k ih =>
      have step : Nat.pow 10 (k + 1) = Nat.pow 10 k * 10 := rfl
      have positive : 0 < Nat.pow 10 k := Nat.pow_pos (by decide)
      rw [step] at h ⊢
      have large : 10 ≤ n / Nat.pow 10 k := (Nat.le_div_iff_mul_le positive).2 (by omega)
      rw [ih (by omega), length_ofNat_div _ large, Nat.div_div_eq_div_mul]
      omega

theorem count_eq_length (n : Nat) : count n = (ofNat n).length := by
  induction n using Nat.strongRecOn with
  | _ n ih =>
      rw [count]
      split
      · rfl
      · rename_i large
        have power : 10000000000000000 = Nat.pow 10 16 := rfl
        rw [ih (n / 10000000000000000) (by omega), power,
          ← length_ofNat_div_pow 16 n (by rw [← power]; omega)]

def span (s : Text) : Text × Text := (s.takeWhile Char.isDigit, s.dropWhile Char.isDigit)

end ArithTemplate.Numeral
