import ArithTemplate.Rounding

set_option autoImplicit false

/-!
Binary floating point numbers of 64 bits. A finite number is a sign and a code, the low 63 bits of
its bit pattern; every finite number is a multiple of the smallest positive one, 2 ^ -1074, and the
number of these units grows with the code. There is one not-a-number.
-/

namespace ArithTemplate

inductive Binary64 where
  | nan
  | infinite (negative : Bool)
  | finite (negative : Bool) (code : Fin 0x7FF0000000000000)
deriving DecidableEq, Repr

namespace Binary64

-- The code infinity would have: one past the largest finite code.
def codeLimit : Nat := 0x7FF0000000000000

def impliedBit : Nat := 0x10000000000000

def signBit : Nat := 0x8000000000000000

-- How many units of 2 ^ -1074 make one.
def unitsPerOne : Nat := Nat.pow 2 1074

-- The units a code stands for: below 2 ^ 53 the code itself, above it a fraction of 53 bits
-- shifted by the exponent field.
def units (code : Nat) : Nat :=
  if code < 2 * impliedBit then code
  else (impliedBit + code % impliedBit) * Nat.pow 2 (code / impliedBit - 1)

-- Code of the number nearest to `num / den` units, a tie to the even code. A quotient of more
-- than 53 bits is shifted to 53 bits first; a carry out of them moves on to the next exponent.
def nearestCode (num den : Nat) : Nat :=
  let shift := Nat.log2 (num / den) - 52
  shift * impliedBit + roundHalfEven num (den * Nat.pow 2 shift)

def ofRatio (negative : Bool) (num den : Nat) : Binary64 :=
  if h : nearestCode num den < 0x7FF0000000000000 then .finite negative ⟨nearestCode num den, h⟩
  else .infinite negative

def zero (negative : Bool) : Binary64 := .finite negative 0

def isNaN : Binary64 → Bool
  | .nan => true
  | _ => false

def isFinite : Binary64 → Bool
  | .finite _ _ => true
  | _ => false

def isNegative : Binary64 → Bool
  | .nan => false
  | .infinite negative => negative
  | .finite negative _ => negative

def ofBits (bits : Nat) : Binary64 :=
  let negative := decide (signBit ≤ bits)
  let code := bits % signBit
  if h : code < 0x7FF0000000000000 then .finite negative ⟨code, h⟩
  else if code = codeLimit then .infinite negative
  else .nan

-- A pattern that stands for the number; for not-a-number the quiet positive one.
def toBits : Binary64 → Nat
  | .nan => 0x7FF8000000000000
  | .infinite negative => (if negative then signBit else 0) + codeLimit
  | .finite negative code => (if negative then signBit else 0) + code.val

theorem ofBits_toBits (x : Binary64) : ofBits (toBits x) = x := by
  cases x with
  | nan => rfl
  | infinite negative => cases negative <;> rfl
  | finite negative code =>
      obtain ⟨code, bound⟩ := code
      cases negative with
      | false =>
          have sign : decide (signBit ≤ code) = false :=
            decide_eq_false (by simp only [signBit]; omega)
          have low : code % signBit = code := by simp only [signBit]; omega
          simp only [toBits, ofBits, Bool.false_eq_true, if_false, Nat.zero_add, sign, low]
          rw [dif_pos bound]
      | true =>
          have sign : decide (signBit ≤ signBit + code) = true := by simp
          have low : (signBit + code) % signBit = code := by
            simp only [signBit]
            omega
          simp only [toBits, ofBits, if_true, sign, low]
          rw [dif_pos bound]

end Binary64
end ArithTemplate
