import ArithTemplate.Formula.Basic

set_option autoImplicit false

namespace ArithTemplate.Formula

-- The texts among the leaves, from left to right.
def texts : Formula → List Text
  | .constant _ => []
  | .text content => [content]
  | .binary _ left right => left.texts ++ right.texts

def constants : Formula → Nat
  | .constant _ => 1
  | .text _ => 0
  | .binary _ left right => left.constants + right.constants

def operations : Formula → Nat
  | .constant _ => 0
  | .text _ => 0
  | .binary _ left right => left.operations + right.operations + 1

-- The operations on the longest way down to a leaf.
def depth : Formula → Nat
  | .constant _ => 0
  | .text _ => 0
  | .binary _ left right => max left.depth right.depth + 1

theorem size_by_kind (f : Formula) : f.size = f.constants + f.texts.length + f.operations := by
  induction f with
  | constant value => rfl
  | text content => rfl
  | binary operation left right leftSize rightSize =>
      rw [size, constants, texts, operations, List.length_append, leftSize, rightSize]
      omega

theorem leaves_exceed_operations (f : Formula) :
    f.constants + f.texts.length = f.operations + 1 := by
  induction f with
  | constant value => rfl
  | text content => rfl
  | binary operation left right leftLeaves rightLeaves =>
      rw [constants, texts, operations, List.length_append]
      omega

theorem depth_le_operations (f : Formula) : f.depth ≤ f.operations := by
  induction f with
  | constant value => exact Nat.le_refl 0
  | text content => exact Nat.le_refl 0
  | binary operation left right leftDepth rightDepth =>
      rw [depth, operations]
      omega

end ArithTemplate.Formula
