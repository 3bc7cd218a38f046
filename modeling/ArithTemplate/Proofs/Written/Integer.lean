import ArithTemplate.Proofs.DefaultText
import ArithTemplate.Proofs.Rounded.Integer
import ArithTemplate.Proofs.Written.Reading

set_option autoImplicit false

open ArithTemplate.Binary64 (IsWhole)

namespace ArithTemplate.Written

-- A sign or none, and digits.
def Number.Whole (n : Number) : Prop := n.mantissa.decimals = none ∧ n.power = none

def Number.integer (n : Number) : ℤ :=
  Binary64.signed (isMinus n.sign) (Numeral.value n.mantissa.wholeDigits)

-- Formulas of whole numbers without a division.
mutual
def Operand.Whole : Operand → Prop
  | .number n => n.Whole
  | .nested _ inner _ => inner.Whole
def Product.Whole : Product → Prop
  | .of first rest => first.Whole ∧ rest.Whole
def Factors.Whole : Factors → Prop
  | .nil => True
  | .cons _ sign _ next rest => sign.operation = .mul ∧ next.Whole ∧ rest.Whole
def Sum.Whole : Sum → Prop
  | .of first rest => first.Whole ∧ rest.Whole
def Terms.Whole : Terms → Prop
  | .nil => True
  | .cons _ _ _ next rest => next.Whole ∧ rest.Whole
end

def SumSign.integer : SumSign → ℤ → ℤ → ℤ
  | .plus, left, right => left + right
  | .minus, left, right => left - right

-- The exact value of such a formula. A chain goes on from the value of all that stands before it.
mutual
def Operand.integer : Operand → ℤ
  | .number n => n.integer
  | .nested _ inner _ => inner.integer
def Product.integer : Product → ℤ
  | .of first rest => rest.integerFrom first.integer
def Factors.integerFrom : Factors → ℤ → ℤ
  | .nil, left => left
  | .cons _ _ _ next rest, left => rest.integerFrom (left * next.integer)
def Sum.integer : Sum → ℤ
  | .of first rest => rest.integerFrom first.integer
def Terms.integerFrom : Terms → ℤ → ℤ
  | .nil, left => left
  | .cons _ sign _ next rest, left => rest.integerFrom (sign.integer left next.integer)
end

def Fits (z : ℤ) : Prop := z.natAbs ≤ 2 ^ 53

-- The value of every literal, and of every chain as far as it goes, is small enough.
mutual
def Operand.Fits : Operand → Prop
  | .number n => Written.Fits n.integer
  | .nested _ inner _ => inner.Fits
def Product.Fits : Product → Prop
  | .of first rest => first.Fits ∧ rest.FitsFrom first.integer
def Factors.FitsFrom : Factors → ℤ → Prop
  | .nil, _ => True
  | .cons _ _ _ next rest, left =>
      next.Fits ∧ Written.Fits (left * next.integer) ∧ rest.FitsFrom (left * next.integer)
def Sum.Fits : Sum → Prop
  | .of first rest => first.Fits ∧ rest.FitsFrom first.integer
def Terms.FitsFrom : Terms → ℤ → Prop
  | .nil, _ => True
  | .cons _ sign _ next rest, left =>
      next.Fits ∧ Written.Fits (sign.integer left next.integer) ∧
        rest.FitsFrom (sign.integer left next.integer)
end

theorem number_whole (n : Number) (whole : n.Whole) (fits : Fits n.integer) :
    IsWhole n.value n.integer := by
  obtain ⟨noDecimals, noPower⟩ := whole
  let digits := Numeral.value n.mantissa.wholeDigits
  rw [Fits, Number.integer, Binary64.signed_abs] at fits
  obtain ⟨code, value⟩ := Binary64.whole_code digits fits
  have rational : n.rational = digits := by
    simp [Number.rational, Number.decimal, Decimal.rational, noDecimals, noPower, powerValue, digits]
  have read : Binary64.ReadAs code n.rational := rational ▸ Binary64.whole_read code digits value
  have counts : ∀ p, n.power = some p → Numeral.value p.digits.text < 10 * Exponent.bound := by
    rw [noPower]
    rintro p absurd
    cases absurd
  exact ⟨isMinus n.sign, digits, code, (number_value_iff n _ code counts).2 ⟨rfl, read⟩, value, rfl⟩

theorem joined_whole (operation : Operation) (left right : Formula) (x y : Binary64)
    (onLeft : left.evaluate = .ok x) (onRight : right.evaluate = .ok y) :
    (Formula.binary operation left right).evaluate = .ok (operation.apply x y) := by
  rw [Formula.evaluate, onLeft, onRight]

theorem sum_sign_whole (sign : SumSign) (x y : Binary64) (a b : ℤ) (left : IsWhole x a)
    (right : IsWhole y b) (fits : Fits (sign.integer a b)) :
    IsWhole (sign.operation.apply x y) (sign.integer a b) := by
  cases sign with
  | plus => exact Binary64.whole_add x y a b left right fits
  | minus => exact Binary64.whole_sub x y a b left right fits

-- The value of a formula is a whole number of that size.
def Gives (f : Formula) (z : ℤ) : Prop := ∃ x, f.evaluate = .ok x ∧ IsWhole x z ∧ Fits z

mutual
theorem operand_gives (o : Operand) (whole : o.Whole) (fits : o.Fits) : Gives o.formula o.integer := by
  cases o with
  | number n =>
      rw [Operand.Whole] at whole
      rw [Operand.Fits] at fits
      rw [Operand.formula, Operand.integer]
      exact ⟨n.value, rfl, number_whole n whole fits, fits⟩
  | nested before inner after =>
      rw [Operand.Whole] at whole
      rw [Operand.Fits] at fits
      rw [Operand.formula, Operand.integer]
      exact sum_gives inner whole fits
theorem product_gives (p : Product) (whole : p.Whole) (fits : p.Fits) : Gives p.formula p.integer := by
  cases p with
  | of first rest =>
      rw [Product.Whole] at whole
      rw [Product.Fits] at fits
      rw [Product.formula, Product.integer]
      exact factors_give rest first.formula first.integer (operand_gives first whole.1 fits.1) whole.2
        fits.2
theorem factors_give (f : Factors) (left : Formula) (a : ℤ) (gives : Gives left a) (whole : f.Whole)
    (fits : f.FitsFrom a) : Gives (f.joinedTo left) (f.integerFrom a) := by
  cases f with
  | nil => simpa only [Factors.joinedTo, Factors.integerFrom] using gives
  | cons before sign after next rest =>
      rw [Factors.Whole] at whole
      rw [Factors.FitsFrom] at fits
      rw [Factors.joinedTo, Factors.integerFrom]
      obtain ⟨x, evaluated, onLeft, _⟩ := gives
      obtain ⟨y, evaluated', onRight, _⟩ := operand_gives next whole.2.1 fits.1
      refine factors_give rest _ _ ⟨_, joined_whole _ _ _ x y evaluated evaluated', ?_, fits.2.1⟩
        whole.2.2 fits.2.2
      rw [whole.1]
      exact Binary64.whole_mul x y a next.integer onLeft onRight fits.2.1
theorem sum_gives (s : Sum) (whole : s.Whole) (fits : s.Fits) : Gives s.formula s.integer := by
  cases s with
  | of first rest =>
      rw [Sum.Whole] at whole
      rw [Sum.Fits] at fits
      rw [Sum.formula, Sum.integer]
      exact terms_give rest first.formula first.integer (product_gives first whole.1 fits.1) whole.2
        fits.2
theorem terms_give (t : Terms) (left : Formula) (a : ℤ) (gives : Gives left a) (whole : t.Whole)
    (fits : t.FitsFrom a) : Gives (t.joinedTo left) (t.integerFrom a) := by
  cases t with
  | nil => simpa only [Terms.joinedTo, Terms.integerFrom] using gives
  | cons before sign after next rest =>
      rw [Terms.Whole] at whole
      rw [Terms.FitsFrom] at fits
      rw [Terms.joinedTo, Terms.integerFrom]
      obtain ⟨x, evaluated, onLeft, _⟩ := gives
      obtain ⟨y, evaluated', onRight, _⟩ := product_gives next whole.1 fits.1
      refine terms_give rest _ _ ⟨_, joined_whole _ _ _ x y evaluated evaluated', ?_, fits.2.1⟩
        whole.2 fits.2.2
      exact sum_sign_whole sign x y a next.integer onLeft onRight fits.2.1
end

-- In whole numbers of this size nothing is rounded, and the result is written as a whole number.
theorem integer_arithmetic_exact (sentence : Sentence) (reading : Formula.Reading)
    (reads : Formula.read .strict sentence.text = .ok reading) (whole : sentence.sum.Whole)
    (fits : sentence.sum.Fits) :
    ∃ x, reading.formula.evaluate = .ok x ∧ x.Equals sentence.sum.integer ∧
      (sentence.sum.integer ≠ 0 → x.text =
        (if sentence.sum.integer < 0 then ['-'] else []) ++
          Numeral.ofNat sentence.sum.integer.natAbs) := by
  obtain ⟨other, text, _, _, rfl⟩ := sentence_of_read sentence.text reading reads
  obtain rfl := sentence_unique other sentence text
  obtain ⟨x, evaluated, value, fits⟩ := sum_gives _ whole fits
  exact ⟨x, evaluated, Binary64.whole_equals x _ value, Binary64.whole_text x _ value fits⟩

def plainNumber (sign : Option Sign) (digits : SomeDigits) : Operand :=
  .number ⟨sign, .whole digits none, none⟩

-- A product of two negative numbers, one of them with a zero in front, taken off the largest odd number.
theorem below_limit_exact :
    let numeral (n : Nat) : Product := .of (plainNumber none (numeralDigits n)) .nil
    let seven : SomeDigits := ⟨⟨['0', '7'], List.all_eq_true.1 rfl⟩, nofun⟩
    let difference : Sum := .of (numeral 2) (.cons noBlanks .minus noBlanks (numeral 3) .nil)
    let product : Product := .of (.nested noBlanks difference noBlanks)
      (.cons noBlanks .times noBlanks (plainNumber (some .minus) seven) .nil)
    let sentence : Sentence := ⟨noBlanks, .of (numeral 9007199254740991)
      (.cons noBlanks .minus noBlanks product .nil), noBlanks⟩
    sentence.text = "9007199254740991-(2-3)*-07".toList ∧ sentence.sum.Whole ∧ sentence.sum.Fits ∧
      sentence.sum.integer = 9007199254740984 ∧
      ∃ reading x, Formula.read .strict sentence.text = .ok reading ∧
        reading.formula.evaluate = .ok x ∧ x.Equals (9007199254740984 : ℤ) ∧
        x.text = "9007199254740984".toList := by
  intro numeral seven difference product sentence
  have whole : sentence.sum.Whole := by
    simp [sentence, product, difference, numeral, plainNumber, Sum.Whole, Product.Whole, Factors.Whole,
      Terms.Whole, Operand.Whole, Number.Whole, Mantissa.decimals, ProductSign.operation]
  have fits : sentence.sum.Fits := by
    simp only [sentence, product, difference, numeral, plainNumber, Sum.Fits, Product.Fits,
      Factors.FitsFrom, Terms.FitsFrom, Operand.Fits, Fits]
    decide +kernel
  have value : sentence.sum.integer = 9007199254740984 := by decide +kernel
  have reads := sentence_reads sentence (by decide) (by decide +kernel)
  obtain ⟨x, evaluated, equals, text⟩ := integer_arithmetic_exact sentence _ reads whole fits
  rw [value] at equals text
  exact ⟨by decide +kernel, whole, fits, value, _, x, reads, evaluated, equals, text (by decide)⟩

end ArithTemplate.Written
