import ArithTemplate.Proofs.Written.Printed

set_option autoImplicit false

open ArithTemplate.Formula

namespace ArithTemplate.Written

-- What sentences are spelled with.
def Spells (c : Char) : Prop :=
  c.isDigit = true ∨ c ∈ literalMarks ∨ c ∈ ['*', '/', '(', ')'] ∨ Text.isBlank c = true

instance (c : Char) : Decidable (Spells c) :=
  inferInstanceAs (Decidable (c.isDigit = true ∨ c ∈ literalMarks ∨ c ∈ ['*', '/', '(', ')'] ∨
    Text.isBlank c = true))

theorem number_spelled (n : Number) : ∀ c ∈ n.text, Spells c :=
  fun c member => (number_marks n c member).imp id .inl

theorem blanks_spelled (blanks : Blanks) : ∀ c ∈ blanks.text, Spells c :=
  fun c member => .inr (.inr (.inr (blanks.blank c member)))

theorem symbol_spelled (operation : Operation) : Spells operation.symbol := by
  cases operation <;> decide

theorem link_spelled (before : Blanks) (operation : Operation) (after : Blanks) (s : Text)
    (inside : ∀ c ∈ s, Spells c) : ∀ c ∈ link before operation after s, Spells c :=
  List.forall_mem_append.2 ⟨blanks_spelled before, List.forall_mem_cons.2
    ⟨symbol_spelled operation, List.forall_mem_append.2 ⟨blanks_spelled after, inside⟩⟩⟩

mutual
theorem operand_spelled (o : Operand) : ∀ c ∈ o.text, Spells c := by
  cases o with
  | number n => exact number_spelled n
  | nested before inner after =>
      have behind : ∀ c ∈ after.text ++ [')'], Spells c :=
        List.forall_mem_append.2 ⟨blanks_spelled after, List.forall_mem_singleton.2 (by decide)⟩
      exact List.forall_mem_cons.2 ⟨by decide, List.forall_mem_append.2 ⟨blanks_spelled before,
        List.forall_mem_append.2 ⟨sum_spelled inner, behind⟩⟩⟩
theorem product_spelled (p : Product) : ∀ c ∈ p.text, Spells c := by
  cases p with
  | of first rest => exact List.forall_mem_append.2 ⟨operand_spelled first, factors_spelled rest⟩
theorem factors_spelled (f : Factors) : ∀ c ∈ f.text, Spells c := by
  cases f with
  | nil => exact nofun
  | cons before sign after next rest =>
      exact link_spelled before sign.operation after _
        (List.forall_mem_append.2 ⟨operand_spelled next, factors_spelled rest⟩)
theorem sum_spelled (s : Sum) : ∀ c ∈ s.text, Spells c := by
  cases s with
  | of first rest => exact List.forall_mem_append.2 ⟨product_spelled first, terms_spelled rest⟩
theorem terms_spelled (t : Terms) : ∀ c ∈ t.text, Spells c := by
  cases t with
  | nil => exact nofun
  | cons before sign after next rest =>
      exact link_spelled before sign.operation after _
        (List.forall_mem_append.2 ⟨product_spelled next, terms_spelled rest⟩)
end

theorem sentence_spelled (s : Sentence) : ∀ c ∈ s.text, Spells c :=
  List.forall_mem_append.2 ⟨blanks_spelled s.before,
    List.forall_mem_append.2 ⟨sum_spelled s.sum, blanks_spelled s.after⟩⟩

-- Neither the quote in front of a text nor the letters of what is not finite are in the grammar.
theorem numeric_of_spelled (f : Formula) (spelled : ∀ c ∈ f.print, Spells c) : f.Numeric := by
  induction f with
  | constant value =>
      cases value with
      | nan => exact absurd (spelled 'N' (by decide)) (by decide)
      | infinite negative => exact absurd (spelled 'i' (by cases negative <;> decide)) (by decide)
      | finite negative code => rfl
  | text content => exact absurd (spelled '"' List.mem_cons_self) (by decide)
  | binary operation left right leftNumeric rightNumeric =>
      have inLeft : ∀ c ∈ left.print, Spells c :=
        fun c member => spelled c (by simp [Formula.print, member])
      have inRight : ∀ c ∈ right.print, Spells c :=
        fun c member => spelled c (by simp [Formula.print, member])
      exact ⟨leftNumeric inLeft, rightNumeric inRight⟩

-- A formula can be read from what it prints just when it is made of finite numbers and keeps the
-- limits, and then it is the formula that is read.
theorem read_print_iff (f : Formula) (reading : Reading) :
    Formula.read .strict f.print = .ok reading ↔
      (f.Numeric ∧ f.depth ≤ 128 ∧ f.size ≤ 4096) ∧ reading = ⟨f, f.size⟩ := by
  constructor
  · intro result
    obtain ⟨sentence, text, nesting, fits, rfl⟩ := sentence_of_read _ reading result
    have numeric : f.Numeric := numeric_of_spelled f (text ▸ sentence_spelled sentence)
    obtain ⟨printed, spelled, meant, depth⟩ := printed_sentence f numeric
    -- The text has one derivation only, so the one that was found is the one that was printed.
    obtain rfl : sentence = printed := sentence_unique _ _ (text.trans spelled.symm)
    rw [meant] at fits ⊢
    rw [depth] at nesting
    exact ⟨⟨numeric, nesting, fits⟩, rfl⟩
  · rintro ⟨⟨numeric, nesting, fits⟩, rfl⟩
    exact print_reads f numeric nesting fits

end ArithTemplate.Written
