import ArithTemplate.Proofs.Lenient.Extending
import ArithTemplate.Proofs.Rendering.Whole
import ArithTemplate.Proofs.Substitution.Replacing
import ArithTemplate.Proofs.Written.Printed

set_option autoImplicit false

open ArithTemplate.Text (bytes)

namespace ArithTemplate

structure Name where
  text : Text
  nonempty : text ≠ []
  alphanumeric : ∀ c ∈ text, c.isAlphanum = true

-- A formula with names where numbers are still missing.
inductive Skeleton where
  | number (negative : Bool) (code : Fin 0x7FF0000000000000)
  | named (name : Name)
  | binary (operation : Operation) (left right : Skeleton)

namespace Skeleton

def names : Skeleton → List Name
  | .number _ _ => []
  | .named name => [name]
  | .binary _ left right => left.names ++ right.names

def depth : Skeleton → Nat
  | .number _ _ => 0
  | .named _ => 0
  | .binary _ left right => max left.depth right.depth + 1

def size : Skeleton → Nat
  | .number _ _ => 1
  | .named _ => 1
  | .binary _ left right => left.size + right.size + 1

-- Written like a formula, with a name between underscores.
def print : Skeleton → Text
  | .number negative code => (Binary64.finite negative code).text
  | .named name => '_' :: (name.text ++ ['_'])
  | .binary operation left right =>
      '(' :: left.print ++ ' ' :: operation.symbol :: ' ' :: right.print ++ [')']

section Meaning

variable (meaning : Name → Binary64)

def under : Skeleton → Formula
  | .number negative code => .constant (.finite negative code)
  | .named name => .constant (meaning name)
  | .binary operation left right => .binary operation left.under right.under

def value : Skeleton → Binary64
  | .number negative code => .finite negative code
  | .named name => meaning name
  | .binary operation left right => operation.apply left.value right.value

theorem under_depth (skeleton : Skeleton) : (skeleton.under meaning).depth = skeleton.depth := by
  induction skeleton with
  | number negative code => rfl
  | named name => rfl
  | binary operation left right leftDepth rightDepth =>
      rw [under, Formula.depth, depth, leftDepth, rightDepth]

theorem under_size (skeleton : Skeleton) : (skeleton.under meaning).size = skeleton.size := by
  induction skeleton with
  | number negative code => rfl
  | named name => rfl
  | binary operation left right leftSize rightSize =>
      rw [under, Formula.size, size, leftSize, rightSize]

theorem under_evaluates (skeleton : Skeleton) :
    (skeleton.under meaning).evaluate = .ok (skeleton.value meaning) := by
  induction skeleton with
  | number negative code => rfl
  | named name => rfl
  | binary operation left right leftValue rightValue =>
      simp only [under, Formula.evaluate, leftValue, rightValue, value]

theorem under_numeric (skeleton : Skeleton)
    (finite : ∀ name ∈ skeleton.names, (meaning name).isFinite = true) :
    (skeleton.under meaning).Numeric := by
  induction skeleton with
  | number negative code => rfl
  | named name => exact finite name (List.mem_singleton.2 rfl)
  | binary operation left right leftNumeric rightNumeric =>
      exact ⟨leftNumeric fun name member => finite name (List.mem_append_left _ member),
        rightNumeric fun name member => finite name (List.mem_append_right _ member)⟩

end Meaning

-- What stands between two underscores is a name, so every underscore has its partner, and the text
-- of a value ends where that of the name did.
theorem replace_print (bindings : Bindings) (meaning : Name → Binary64) (skeleton : Skeleton)
    (bound : ∀ name ∈ skeleton.names, bindings.Binds name.text (meaning name)) (rest : Text) :
    bindings.replace (skeleton.print ++ rest) =
      (skeleton.under meaning).print ++ bindings.replace rest := by
  induction skeleton generalizing rest with
  | number negative code =>
      refine bindings.replace_front _ rest fun member => ?_
      exact absurd (Written.text_characters _ '_' member) (by decide)
  | named name =>
      have valid := (Bindings.is_name_iff name.text).2 ⟨name.nonempty, name.alphanumeric⟩
      have known := (bindings.value_iff_binds _ _).2 ⟨valid, bound name (List.mem_singleton.2 rfl)⟩
      have replaced := bindings.replace_bound [] name.text rest _ nofun known
      simpa [print, under, Formula.print] using replaced
  | binary operation left right leftReplaced rightReplaced =>
      have leftSide := leftReplaced fun name member => bound name (List.mem_append_left _ member)
      have rightSide := rightReplaced fun name member => bound name (List.mem_append_right _ member)
      have symbol : operation.symbol ≠ '_' := by cases operation <;> decide
      simp only [print, under, Formula.print, List.cons_append, List.append_assoc,
        List.nil_append, bindings.replace_cons '(' _ (by decide), leftSide,
        bindings.replace_cons ' ' _ (by decide), bindings.replace_cons _ _ symbol, rightSide,
        bindings.replace_cons ')' _ (by decide)]

end Skeleton

-- A placeholder with nothing around it.
theorem alone_renders (strictness : Strictness) (body text : Text) (closed : '}' ∉ body)
    (gives : outcome strictness body = .ok text) (spare : Nat) :
    let r := render ⟨bytes text + spare, strictness⟩ ('{' :: (body ++ ['}']))
    r.text = text ∧ r.issues = [] ∧ r.truncated = false := by
  have layout : Layout.ofText ('{' :: (body ++ ['}'])) = ⟨[⟨[], body⟩], [], none⟩ := by
    have front := Layout.of_text_slot ⟨[], body⟩ [] nofun closed
    rw [Layout.of_text_plain [] nofun, List.append_nil] at front
    exact front
  have output : Layout.output strictness (outcome strictness) ⟨[⟨[], body⟩], [], none⟩ = text := by
    cases strictness <;>
      simp [Layout.output, Slot.output, gives, shown, Layout.keptTail, Layout.unclosedText]
  have room := render_room strictness ('{' :: (body ++ ['}'])) spare
  rw [layout, output] at room
  obtain ⟨written, issues, whole⟩ := room
  refine ⟨written, issues.trans ?_, whole⟩
  simp [Layout.reports, reportsFrom, gives, unclosedReport]

theorem printed_outcome (strictness : Strictness) (f : Formula) (value : Binary64)
    (numeric : f.Numeric) (nesting : f.depth ≤ Formula.nestingLimit)
    (fits : f.size ≤ Formula.sizeLimit) (evaluates : f.evaluate = .ok value) :
    outcome strictness f.print = .ok value.text := by
  have strict := Written.print_reads f numeric nesting fits
  have reads : Formula.read strictness f.print = .ok ⟨f, f.size⟩ := by
    cases strictness with
    | strict => exact strict
    | lenient => exact Formula.read_extends _ _ strict
  have single : ':' ∉ f.print := fun member =>
    absurd (Written.print_characters f numeric ':' member) (by decide)
  exact (gives_iff_outcome strictness _ _).1 (.plain f.print ⟨f, f.size⟩ value single reads evaluates)

end ArithTemplate
