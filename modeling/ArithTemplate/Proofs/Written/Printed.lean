import ArithTemplate.Formula.Print
import ArithTemplate.Proofs.DefaultText
import ArithTemplate.Proofs.Measures
import ArithTemplate.Proofs.Written.Reading

set_option autoImplicit false

namespace ArithTemplate

namespace Formula

-- What a sentence can say: nothing but finite numbers.
def Numeric : Formula → Prop
  | .constant value => value.isFinite = true
  | .text _ => False
  | .binary _ left right => left.Numeric ∧ right.Numeric

end Formula

namespace Written

open Formula

def space : Blanks := ⟨[' '], List.forall_mem_singleton.2 (by decide)⟩

-- Two operands joined by one operation, which makes them a product or a sum.
def pair (left : Operand) (operation : Operation) (right : Operand) : Sum :=
  match operation with
  | .add => .of (.of left .nil) (.cons space .plus space (.of right .nil) .nil)
  | .sub => .of (.of left .nil) (.cons space .minus space (.of right .nil) .nil)
  | .mul => .of (.of left (.cons space .times space right .nil)) .nil
  | .div => .of (.of left (.cons space .over space right .nil)) .nil

theorem pair_text (left right : Operand) (operation : Operation) :
    (pair left operation right).text = left.text ++ link space operation space right.text := by
  cases operation <;>
    simp [pair, Sum.text, Product.text, Factors.text, Terms.text, ProductSign.operation,
      SumSign.operation]

theorem pair_formula (left right : Operand) (operation : Operation) :
    (pair left operation right).formula = .binary operation left.formula right.formula := by
  cases operation <;>
    simp [pair, Sum.formula, Product.formula, Factors.joinedTo, Terms.joinedTo,
      ProductSign.operation, SumSign.operation]

theorem pair_nesting (left right : Operand) (operation : Operation) :
    (pair left operation right).nesting = max left.nesting right.nesting := by
  cases operation <;>
    simp [pair, Sum.nesting, Product.nesting, Factors.nesting, Terms.nesting]

-- A printed formula is an operand, with a parenthesis open for every operation on the way down.
theorem printed_operand (f : Formula) (numeric : f.Numeric) :
    ∃ o : Operand, o.text = f.print ∧ o.formula = f ∧ o.nesting = f.depth := by
  induction f with
  | constant value =>
      cases value with
      | nan => cases numeric
      | infinite negative => cases numeric
      | finite negative code =>
          obtain ⟨n, text, value⟩ := text_number negative code
          exact ⟨.number n, text, congrArg Formula.constant value, rfl⟩
  | text content => exact numeric.elim
  | binary operation left right leftPrinted rightPrinted =>
      obtain ⟨l, leftText, leftFormula, leftNesting⟩ := leftPrinted numeric.1
      obtain ⟨r, rightText, rightFormula, rightNesting⟩ := rightPrinted numeric.2
      refine ⟨.nested noBlanks (pair l operation r) noBlanks, ?_, ?_, ?_⟩
      · simp [Operand.text, pair_text, link, noBlanks, space, leftText, rightText, Formula.print]
      · rw [Operand.formula, pair_formula, leftFormula, rightFormula]
      · rw [Operand.nesting, pair_nesting, leftNesting, rightNesting, Formula.depth]

theorem printed_sentence (f : Formula) (numeric : f.Numeric) :
    ∃ s : Sentence, s.text = f.print ∧ s.formula = f ∧ s.nesting = f.depth := by
  obtain ⟨o, text, formula, nesting⟩ := printed_operand f numeric
  refine ⟨⟨noBlanks, .of (.of o .nil) .nil, noBlanks⟩, ?_, formula, ?_⟩
  · simp [Sentence.text, Sum.text, Product.text, Factors.text, Terms.text, noBlanks, text]
  · simp [Sentence.nesting, Sum.nesting, Product.nesting, Factors.nesting, Terms.nesting, nesting]

theorem print_reads (f : Formula) (numeric : f.Numeric) (nesting : f.depth ≤ nestingLimit)
    (fits : f.size ≤ sizeLimit) : Formula.read .strict f.print = .ok ⟨f, f.size⟩ := by
  obtain ⟨sentence, spelled, meant, depth⟩ := printed_sentence f numeric
  have reads := sentence_reads sentence (depth ▸ nesting) (meant.symm ▸ fits)
  rwa [spelled, meant] at reads

-- What a printed formula may hold besides digits and letters.
def formulaMarks : List Char := numberMarks ++ ['*', '/', '(', ')', ' ']

theorem print_characters (f : Formula) (numeric : f.Numeric) :
    ∀ c ∈ f.print, c.isAlphanum = true ∨ c ∈ formulaMarks := by
  induction f with
  | constant value =>
      intro c member
      exact (text_characters value c member).imp id (List.mem_append_left _)
  | text content => exact numeric.elim
  | binary operation left right leftPrinted rightPrinted =>
      have symbol : operation.symbol ∈ formulaMarks := by cases operation <;> decide
      rw [Formula.print]
      refine List.forall_mem_append.2
        ⟨List.forall_mem_append.2 ⟨?_, ?_⟩, List.forall_mem_singleton.2 (by decide)⟩
      · exact List.forall_mem_cons.2 ⟨by decide, leftPrinted numeric.1⟩
      · exact List.forall_mem_cons.2 ⟨by decide, List.forall_mem_cons.2 ⟨.inr symbol,
          List.forall_mem_cons.2 ⟨by decide, rightPrinted numeric.2⟩⟩⟩

end Written
end ArithTemplate
