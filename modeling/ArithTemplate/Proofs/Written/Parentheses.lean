import ArithTemplate.Proofs.Written.Unique

set_option autoImplicit false

open ArithTemplate.Text (bytes bytes_append)

namespace ArithTemplate.Written

-- The places of the parentheses that are open behind a text, the innermost first, when `opened`
-- were open in front of it.
def openFrom (position : Nat) (opened : List Nat) : Text → List Nat
  | [] => opened
  | c :: rest =>
      let next :=
        if c = '(' then position :: opened else if c = ')' then opened.tail else opened
      openFrom (position + c.utf8Size) next rest

def openings (s : Text) : List Nat := openFrom 0 [] s

theorem open_append (s t : Text) (position : Nat) (opened : List Nat) :
    openFrom position opened (s ++ t) =
      openFrom (position + bytes s) (openFrom position opened s) t := by
  induction s generalizing position opened with
  | nil => rfl
  | cons c rest hypothesis =>
      rw [List.cons_append, openFrom, openFrom, hypothesis, bytes, Nat.add_assoc]

-- The text opens these parentheses for good and closes none that it did not open.
def Leaves (position : Nat) (s : Text) (own : List Nat) : Prop :=
  ∀ opened, openFrom position opened s = own ++ opened

def Balanced (s : Text) : Prop := ∀ position, Leaves position s []

theorem leaves_openings (s : Text) (own : List Nat) (leaves : Leaves 0 s own) :
    openings s = own := by
  rw [openings, leaves, List.append_nil]

theorem leaves_behind (s t : Text) (position : Nat) (own : List Nat) (balanced : Balanced s)
    (leaves : Leaves (position + bytes s) t own) : Leaves position (s ++ t) own := by
  intro opened
  rw [open_append, balanced position opened]
  exact leaves opened

theorem leaves_nested (s : Text) (position : Nat) (own : List Nat)
    (leaves : Leaves (position + 1) s own) : Leaves position ('(' :: s) (own ++ [position]) := by
  intro opened
  rw [List.append_assoc]
  exact leaves (position :: opened)

theorem balanced_nil : Balanced [] := fun _ _ => rfl

theorem balanced_append (s t : Text) (left : Balanced s) (right : Balanced t) :
    Balanced (s ++ t) :=
  fun position => leaves_behind s t position [] left (right _)

theorem balanced_plain (s : Text) (plain : ∀ c ∈ s, c ≠ '(' ∧ c ≠ ')') : Balanced s := by
  induction s with
  | nil => exact balanced_nil
  | cons c rest hypothesis =>
      obtain ⟨here, later⟩ := List.forall_mem_cons.1 plain
      intro position opened
      rw [openFrom, if_neg here.1, if_neg here.2]
      exact hypothesis later _ opened

theorem balanced_nested (s : Text) (balanced : Balanced s) : Balanced ('(' :: (s ++ [')'])) := by
  intro position opened
  have inside := balanced (position + 1) (position :: opened)
  have shape : '(' :: (s ++ [')']) = ['('] ++ (s ++ [')']) := rfl
  rw [shape, open_append, open_append]
  exact congrArg List.tail inside

theorem balanced_number (n : Number) : Balanced n.text := by
  refine balanced_plain n.text fun c member => ⟨?_, ?_⟩
  · rintro rfl
    exact absurd (number_characters n '(' member) (by decide)
  · rintro rfl
    exact absurd (number_characters n ')' member) (by decide)

theorem balanced_blanks (blanks : Blanks) : Balanced blanks.text := by
  refine balanced_plain blanks.text fun c member => ⟨?_, ?_⟩
  · rintro rfl
    exact absurd (blanks.blank '(' member) (by decide)
  · rintro rfl
    exact absurd (blanks.blank ')' member) (by decide)

theorem balanced_symbol (operation : Operation) : Balanced [operation.symbol] :=
  balanced_plain _ (List.forall_mem_singleton.2 (by cases operation <;> decide))

theorem balanced_link (before : Blanks) (operation : Operation) (after : Blanks) (s : Text)
    (balanced : Balanced s) : Balanced (link before operation after s) :=
  balanced_append _ _ (balanced_blanks before) (balanced_append _ _ (balanced_symbol operation)
    (balanced_append _ _ (balanced_blanks after) balanced))

mutual
theorem operand_balanced (o : Operand) : Balanced o.text := by
  cases o with
  | number n => exact balanced_number n
  | nested before inner after =>
      have inside := balanced_append _ _ (balanced_blanks before)
        (balanced_append _ _ (sum_balanced inner) (balanced_blanks after))
      have whole := balanced_nested _ inside
      simp only [List.append_assoc] at whole
      exact whole
theorem product_balanced (p : Product) : Balanced p.text := by
  cases p with
  | of first rest => exact balanced_append _ _ (operand_balanced first) (factors_balanced rest)
theorem factors_balanced (f : Factors) : Balanced f.text := by
  cases f with
  | nil => exact balanced_nil
  | cons before sign after next rest =>
      exact balanced_link before sign.operation after _
        (balanced_append _ _ (operand_balanced next) (factors_balanced rest))
theorem sum_balanced (s : Sum) : Balanced s.text := by
  cases s with
  | of first rest => exact balanced_append _ _ (product_balanced first) (terms_balanced rest)
theorem terms_balanced (t : Terms) : Balanced t.text := by
  cases t with
  | nil => exact balanced_nil
  | cons before sign after next rest =>
      exact balanced_link before sign.operation after _
        (balanced_append _ _ (product_balanced next) (terms_balanced rest))
end

end ArithTemplate.Written
