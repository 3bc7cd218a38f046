import ArithTemplate.Formula.Print
import ArithTemplate.Proofs.DefaultText
import ArithTemplate.Proofs.Quoted

set_option autoImplicit false

namespace ArithTemplate

namespace Binary64

def plainZero (x : Binary64) : Binary64 := if x = zero true then zero false else x

theorem plain_zero_finite (negative : Bool) (code : Fin 0x7FF0000000000000) :
    plainZero (.finite negative code) = .finite (negative && code.val != 0) code := by
  rw [plainZero]
  by_cases nothing : code = 0
  · subst nothing
    cases negative <;> rfl
  · have something : (code.val != 0) = true := by
      rw [bne_iff_ne]
      exact fun none => nothing (Fin.ext none)
    have different : Binary64.finite negative code ≠ zero true := by
      intro same
      cases same
      exact nothing rfl
    rw [if_neg different, something, Bool.and_true]

-- Numeric equality looks at the sign of everything but zero.
theorem equal_iff (x y : Binary64) (number : x.isNaN = false) (number' : y.isNaN = false) :
    x.equal y = true ↔ x.plainZero = y.plainZero := by
  have infinity (negative : Bool) : plainZero (.infinite negative) = .infinite negative :=
    if_neg nofun
  cases x with
  | nan => cases number
  | infinite negative =>
      cases y with
      | nan => cases number'
      | infinite other => simp [equal, infinity]
      | finite other b => simp [equal, infinity, plain_zero_finite]
  | finite negative a =>
      cases y with
      | nan => cases number'
      | infinite other => simp [equal, infinity, plain_zero_finite]
      | finite other b =>
          rw [plain_zero_finite, plain_zero_finite, equal]
          by_cases same : a = b
          · subst same
            by_cases nothing : a.val = 0
            · simp [nothing]
            · have something : (a.val != 0) = true := bne_iff_ne.2 nothing
              simp [nothing, something]
          · have codes : a.val ≠ b.val := fun equal => same (Fin.ext equal)
            simp [same, codes]

end Binary64

namespace Formula

-- A constant or a text ends before one of these.
def Closes (rest : Text) : Prop := ∀ c, rest.head? = some c → c = ' ' ∨ c = ')'

def ofNumber (c : Char) : Bool := c.isAlphanum || Written.numberMarks.contains c

theorem constant_inside (value : Binary64) : ∀ c ∈ value.text, ofNumber c = true := by
  intro c member
  rcases Written.text_characters value c member with letter | mark
  · simp [ofNumber, letter]
  · simp [ofNumber, mark]

theorem closes_outside (rest : Text) (closes : Closes rest) :
    ∀ c, rest.head? = some c → ofNumber c = false := by
  intro c head
  rcases closes c head with rfl | rfl <;> decide

theorem constant_unique (x y : Binary64) (rest rest' : Text) (closes : Closes rest) (closes' : Closes rest')
    (same : x.text ++ rest = y.text ++ rest') : x = y ∧ rest = rest' := by
  obtain ⟨texts, behind⟩ := run_unique ofNumber _ _ _ _ (constant_inside x) (constant_inside y)
    (closes_outside rest closes) (closes_outside rest' closes') same
  exact ⟨Written.text_injective texts, behind⟩

theorem constant_head (value : Binary64) (rest : Text) (closes : Closes rest) (c : Char) (tail : Text)
    (shape : value.text ++ rest = c :: tail) : c ≠ '(' ∧ c ≠ '"' := by
  have known : ofNumber c = true ∨ c = ' ' ∨ c = ')' := by
    cases text : value.text with
    | nil =>
        rw [text, List.nil_append] at shape
        exact .inr (closes c (shape ▸ rfl))
    | cons d more =>
        rw [text] at shape
        obtain ⟨rfl, _⟩ := List.cons.inj shape
        exact .inl (constant_inside value d (text ▸ List.mem_cons_self))
  constructor
  · rintro rfl
    exact absurd known (by decide)
  · rintro rfl
    exact absurd known (by decide)

theorem symbol_injective : Function.Injective Operation.symbol := by
  intro a b
  cases a <;> cases b <;> decide

theorem binary_print (operation : Operation) (left right : Formula) (rest : Text) :
    (binary operation left right).print ++ rest =
      '(' :: (left.print ++ (' ' :: operation.symbol :: ' ' :: (right.print ++ ')' :: rest))) := by
  simp [print]

-- Where a formula ends is seen from what is printed: an operation at its own closing parenthesis, a
-- text at its closing quote, a number before what can follow it.
theorem print_unique (f g : Formula) (rest rest' : Text) (closes : Closes rest) (closes' : Closes rest')
    (same : f.print ++ rest = g.print ++ rest') : f = g ∧ rest = rest' := by
  induction f generalizing g rest rest' with
  | constant x =>
      cases g with
      | constant y =>
          obtain ⟨rfl, behind⟩ := constant_unique x y rest rest' closes closes' same
          exact ⟨rfl, behind⟩
      | text t => exact absurd rfl (constant_head x rest closes _ _ same).2
      | binary operation left right =>
          rw [binary_print] at same
          exact absurd rfl (constant_head x rest closes _ _ same).1
  | text s =>
      cases g with
      | constant y => exact absurd rfl (constant_head y rest' closes' _ _ same.symm).2
      | text t =>
          obtain ⟨rfl, behind⟩ := Text.quoted_unique s t rest rest' same
          exact ⟨rfl, behind⟩
      | binary operation left right =>
          rw [binary_print] at same
          exact absurd (List.cons.inj same).1 (by decide)
  | binary operation left right leftUnique rightUnique =>
      cases g with
      | constant y =>
          rw [binary_print] at same
          exact absurd rfl (constant_head y rest' closes' _ _ same.symm).1
      | text t =>
          rw [binary_print] at same
          exact absurd (List.cons.inj same).1 (by decide)
      | binary operation' left' right' =>
          rw [binary_print, binary_print] at same
          have space (behind : Text) : Closes (' ' :: behind) := by
            rintro c head
            cases head
            exact .inl rfl
          have parenthesis (behind : Text) : Closes (')' :: behind) := by
            rintro c head
            cases head
            exact .inr rfl
          obtain ⟨onLeft, behindLeft⟩ := leftUnique left' _ _ (space _) (space _) (List.cons.inj same).2
          obtain ⟨symbol, onwards⟩ := List.cons.inj (List.cons.inj behindLeft).2
          obtain ⟨onRight, behindRight⟩ := rightUnique right' _ _ (parenthesis _) (parenthesis _)
            (List.cons.inj onwards).2
          rw [symbol_injective symbol, onLeft, onRight]
          exact ⟨rfl, (List.cons.inj behindRight).2⟩

theorem print_injective : Function.Injective print := by
  intro f g same
  have whole : f.print ++ [] = g.print ++ [] := congrArg (· ++ []) same
  exact (print_unique f g [] [] nofun nofun whole).1

def withConstants (change : Binary64 → Binary64) : Formula → Formula
  | .constant value => .constant (change value)
  | .text content => .text content
  | .binary operation left right =>
      .binary operation (left.withConstants change) (right.withConstants change)

-- Every constant is a number.
def Comparable : Formula → Prop
  | .constant value => value.isNaN = false
  | .text _ => True
  | .binary _ left right => left.Comparable ∧ right.Comparable

theorem equal_formulas_iff (f g : Formula) (comparable : f.Comparable) (comparable' : g.Comparable) :
    f.equal g = true ↔ f.withConstants Binary64.plainZero = g.withConstants Binary64.plainZero := by
  induction f generalizing g with
  | constant x =>
      cases g with
      | constant y => simp [equal, withConstants, Binary64.equal_iff x y comparable comparable']
      | text t => simp [equal, withConstants]
      | binary operation left right => simp [equal, withConstants]
  | text s =>
      cases g with
      | constant y => simp [equal, withConstants]
      | text t => simp [equal, withConstants]
      | binary operation left right => simp [equal, withConstants]
  | binary operation left right leftEqual rightEqual =>
      cases g with
      | constant y => simp [equal, withConstants]
      | text t => simp [equal, withConstants]
      | binary operation' left' right' =>
          have onLeft := leftEqual left' comparable.1 comparable'.1
          have onRight := rightEqual right' comparable.2 comparable'.2
          simp [equal, withConstants, onLeft, onRight, and_assoc]

-- A formula can be told from what it prints, and formulas without not-a-number are equal when they
-- print the same but for the sign of a zero.
theorem print_tells_formulas : Function.Injective print ∧
    ∀ f g : Formula, f.Comparable → g.Comparable →
      (f.equal g = true ↔ (f.withConstants Binary64.plainZero).print =
        (g.withConstants Binary64.plainZero).print) := by
  refine ⟨print_injective, ?_⟩
  intro f g comparable comparable'
  rw [equal_formulas_iff f g comparable comparable', print_injective.eq_iff]

-- The text ends in the middle of what looks like another operation.
theorem zeros_of_either_sign :
    let awkward : Formula := .text ['"', ' ', '-', ' ', '1', ')']
    let f : Formula := .binary .sub (.constant (.zero true)) awkward
    let g : Formula := .binary .sub (.constant (.zero false)) awkward
    f.print ≠ g.print ∧ f.Comparable ∧ g.Comparable ∧ f.equal g = true := by
  intro awkward f g
  have comparable : f.Comparable := ⟨rfl, trivial⟩
  have comparable' : g.Comparable := ⟨rfl, trivial⟩
  have prints : (f.withConstants Binary64.plainZero).print =
      (g.withConstants Binary64.plainZero).print := rfl
  exact ⟨by decide +kernel, comparable, comparable',
    (print_tells_formulas.2 f g comparable comparable').2 prints⟩

end Formula
end ArithTemplate
