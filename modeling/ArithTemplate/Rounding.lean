set_option autoImplicit false

/-!
Division rounded to the nearest natural number, a half to the even neighbour.
-/

namespace ArithTemplate

-- `num / den` to the nearest natural number; of two equally near ones, the even one.
def roundHalfEven (num den : Nat) : Nat :=
  let quotient := num / den
  let remainder := num % den
  if 2 * remainder < den then quotient
  else if den < 2 * remainder then quotient + 1
  else quotient + quotient % 2

end ArithTemplate
