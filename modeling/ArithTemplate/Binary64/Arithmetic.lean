import ArithTemplate.Binary64.Basic

set_option autoImplicit false

/-!
The four operations: the exact result, rounded once. The rules for infinities, signed zeros and
division by zero are those of the floating point standard.
-/

namespace ArithTemplate.Binary64

def neg : Binary64 → Binary64
  | .nan => .nan
  | .infinite negative => .infinite (!negative)
  | .finite negative code => .finite (!negative) code

def signedUnits (negative : Bool) (code : Nat) : Int :=
  if negative then -(units code : Int) else units code

-- An exact sum of zero is negative only when both operands are.
def add : Binary64 → Binary64 → Binary64
  | .finite n a, .finite m b =>
      let sum := signedUnits n a + signedUnits m b
      if sum = 0 then zero (n && m) else ofRatio (decide (sum < 0)) sum.natAbs 1
  | .infinite n, .finite _ _ => .infinite n
  | .finite _ _, .infinite m => .infinite m
  | .infinite n, .infinite m => if n = m then .infinite n else .nan
  | .nan, _ => .nan
  | _, .nan => .nan

def sub (x y : Binary64) : Binary64 := add x (neg y)

def mul : Binary64 → Binary64 → Binary64
  | .finite n a, .finite m b => ofRatio (n != m) (units a * units b) unitsPerOne
  | .infinite n, .finite m b => if b.val = 0 then .nan else .infinite (n != m)
  | .finite n a, .infinite m => if a.val = 0 then .nan else .infinite (n != m)
  | .infinite n, .infinite m => .infinite (n != m)
  | .nan, _ => .nan
  | _, .nan => .nan

def div : Binary64 → Binary64 → Binary64
  | .finite n a, .finite m b =>
      if b.val = 0 then (if a.val = 0 then .nan else .infinite (n != m))
      else ofRatio (n != m) (units a * unitsPerOne) (units b)
  | .infinite n, .finite m _ => .infinite (n != m)
  | .finite n _, .infinite m => zero (n != m)
  | .infinite _, .infinite _ => .nan
  | .nan, _ => .nan
  | _, .nan => .nan

-- Numeric equality: the two zeros are equal, and not-a-number differs from everything.
def equal : Binary64 → Binary64 → Bool
  | .nan, _ => false
  | _, .nan => false
  | .finite n a, .finite m b => a.val == b.val && (n == m || a.val == 0)
  | .infinite n, .infinite m => n == m
  | _, _ => false

end ArithTemplate.Binary64
