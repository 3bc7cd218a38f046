import ArithTemplate.Text.Basic

set_option autoImplicit false

/-!
The parts of a text with placeholders. A placeholder runs from a `{` to the first `}` after it, and
braces do not nest. The last `{` may have no `}`.
-/

namespace ArithTemplate

structure Slot where
  literal : Text
  body : Text
deriving DecidableEq, Repr

structure Layout where
  slots : List Slot
  -- What follows the last placeholder, up to a brace that stays open.
  trailing : Text
  -- What follows the brace that stays open.
  unclosed : Option Text
deriving DecidableEq, Repr

namespace Layout

def ofText (s : Text) : Layout :=
  match opened : Text.cut '{' s with
  | none => ⟨[], s, none⟩
  | some (literal, inside) =>
      match closed : Text.cut '}' inside with
      | none => ⟨[], literal, some inside⟩
      | some (body, rest) =>
          have : rest.length < s.length :=
            Nat.lt_trans (Text.length_lt_of_cut closed) (Text.length_lt_of_cut opened)
          let following := ofText rest
          { following with slots := ⟨literal, body⟩ :: following.slots }
termination_by s.length

end Layout

structure Placeholder where
  formula : Text
  pattern : Option Text
deriving DecidableEq, Repr

def Placeholder.ofBody (body : Text) : Placeholder :=
  match Text.cut ':' body with
  | some (formula, pattern) => ⟨formula, some pattern⟩
  | none => ⟨body, none⟩

end ArithTemplate
