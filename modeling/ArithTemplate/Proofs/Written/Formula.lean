import ArithTemplate.Formula.Reading
import ArithTemplate.Proofs.Written.Number

set_option autoImplicit false

namespace ArithTemplate.Written

structure Blanks where
  text : Text
  blank : ∀ c ∈ text, Text.isBlank c = true

inductive ProductSign where
  | times
  | over

inductive SumSign where
  | plus
  | minus

def ProductSign.operation : ProductSign → Operation
  | .times => .mul
  | .over => .div

def SumSign.operation : SumSign → Operation
  | .plus => .add
  | .minus => .sub

-- The grammar of formulas. A sum is a product and any number of terms joined to it, a product an
-- operand and any number of factors. Blanks may stand around signs and inside parentheses.
mutual
inductive Operand where
  | number (n : Number)
  | nested (before : Blanks) (inner : Sum) (after : Blanks)
inductive Product where
  | of (first : Operand) (rest : Factors)
inductive Factors where
  | nil
  | cons (before : Blanks) (sign : ProductSign) (after : Blanks) (next : Operand) (rest : Factors)
inductive Sum where
  | of (first : Product) (rest : Terms)
inductive Terms where
  | nil
  | cons (before : Blanks) (sign : SumSign) (after : Blanks) (next : Product) (rest : Terms)
end

structure Sentence where
  before : Blanks
  sum : Sum
  after : Blanks

def link (before : Blanks) (operation : Operation) (after : Blanks) (s : Text) : Text :=
  before.text ++ operation.symbol :: (after.text ++ s)

mutual
def Operand.text : Operand → Text
  | .number n => n.text
  | .nested before inner after => '(' :: (before.text ++ (inner.text ++ (after.text ++ [')'])))
def Product.text : Product → Text
  | .of first rest => first.text ++ rest.text
def Factors.text : Factors → Text
  | .nil => []
  | .cons before sign after next rest => link before sign.operation after (next.text ++ rest.text)
def Sum.text : Sum → Text
  | .of first rest => first.text ++ rest.text
def Terms.text : Terms → Text
  | .nil => []
  | .cons before sign after next rest => link before sign.operation after (next.text ++ rest.text)
end

def Sentence.text (s : Sentence) : Text := s.before.text ++ (s.sum.text ++ s.after.text)

-- Every further operand is joined to all that stands before it in its chain.
mutual
def Operand.formula : Operand → Formula
  | .number n => .constant n.value
  | .nested _ inner _ => inner.formula
def Product.formula : Product → Formula
  | .of first rest => rest.joinedTo first.formula
def Factors.joinedTo : Factors → Formula → Formula
  | .nil, left => left
  | .cons _ sign _ next rest, left => rest.joinedTo (.binary sign.operation left next.formula)
def Sum.formula : Sum → Formula
  | .of first rest => rest.joinedTo first.formula
def Terms.joinedTo : Terms → Formula → Formula
  | .nil, left => left
  | .cons _ sign _ next rest, left => rest.joinedTo (.binary sign.operation left next.formula)
end

def Sentence.formula (s : Sentence) : Formula := s.sum.formula

-- How many parentheses are open at once.
mutual
def Operand.nesting : Operand → Nat
  | .number _ => 0
  | .nested _ inner _ => inner.nesting + 1
def Product.nesting : Product → Nat
  | .of first rest => max first.nesting rest.nesting
def Factors.nesting : Factors → Nat
  | .nil => 0
  | .cons _ _ _ next rest => max next.nesting rest.nesting
def Sum.nesting : Sum → Nat
  | .of first rest => max first.nesting rest.nesting
def Terms.nesting : Terms → Nat
  | .nil => 0
  | .cons _ _ _ next rest => max next.nesting rest.nesting
end

def Sentence.nesting (s : Sentence) : Nat := s.sum.nesting

-- How many constants and operations a chain adds to what it is joined to.
mutual
def Operand.size : Operand → Nat
  | .number _ => 1
  | .nested _ inner _ => inner.size
def Product.size : Product → Nat
  | .of first rest => first.size + rest.size
def Factors.size : Factors → Nat
  | .nil => 0
  | .cons _ _ _ next rest => next.size + 1 + rest.size
def Sum.size : Sum → Nat
  | .of first rest => first.size + rest.size
def Terms.size : Terms → Nat
  | .nil => 0
  | .cons _ _ _ next rest => next.size + 1 + rest.size
end

mutual
theorem operand_formula_size (o : Operand) : o.formula.size = o.size := by
  cases o with
  | number n => rfl
  | nested before inner after =>
      simpa only [Operand.formula, Operand.size] using sum_formula_size inner
theorem product_formula_size (p : Product) : p.formula.size = p.size := by
  cases p with
  | of first rest =>
      rw [Product.formula, Product.size, factors_joined_size rest, operand_formula_size first]
theorem factors_joined_size (f : Factors) (left : Formula) :
    (f.joinedTo left).size = left.size + f.size := by
  cases f with
  | nil => rfl
  | cons before sign after next rest =>
      have nextSize := operand_formula_size next
      rw [Factors.joinedTo, factors_joined_size rest, Formula.size, Factors.size]
      omega
theorem sum_formula_size (s : Sum) : s.formula.size = s.size := by
  cases s with
  | of first rest =>
      rw [Sum.formula, Sum.size, terms_joined_size rest, product_formula_size first]
theorem terms_joined_size (t : Terms) (left : Formula) :
    (t.joinedTo left).size = left.size + t.size := by
  cases t with
  | nil => rfl
  | cons before sign after next rest =>
      have nextSize := product_formula_size next
      rw [Terms.joinedTo, terms_joined_size rest, Formula.size, Terms.size]
      omega
end

end ArithTemplate.Written
