import ArithTemplate.Proofs.Readers
import ArithTemplate.Proofs.Written.Formula

set_option autoImplicit false

open ArithTemplate.Formula (Ends)

namespace ArithTemplate.Written

-- A text that scanning of blanks leaves as it is, whatever stands behind it.
def Solid (s : Text) : Prop := ∃ c tail, s = c :: tail ∧ Text.isBlank c = false

theorem solid_append (s t : Text) (solid : Solid s) : Solid (s ++ t) := by
  obtain ⟨c, tail, rfl, full⟩ := solid
  exact ⟨c, tail ++ t, rfl, full⟩

theorem solid_head (s : Text) (solid : Solid s) : ∀ c, s.head? = some c → Text.isBlank c = false := by
  obtain ⟨c, tail, rfl, full⟩ := solid
  intro d head
  cases head
  exact full

theorem blanks_dropped (before : Blanks) (s : Text) (solid : Solid s) :
    (before.text ++ s).dropWhile Text.isBlank = s :=
  run_dropped Text.isBlank before.text s before.blank (solid_head s solid)

theorem blanks_unique (a b : Blanks) (s t : Text) (left : Solid s) (right : Solid t)
    (same : a.text ++ s = b.text ++ t) : a = b ∧ s = t := by
  obtain ⟨texts, rest⟩ := run_unique Text.isBlank a.text b.text s t a.blank b.blank
    (solid_head s left) (solid_head t right) same
  refine ⟨?_, rest⟩
  cases a
  cases b
  cases texts
  rfl

theorem solid_symbol (operation : Operation) (s : Text) : Solid (operation.symbol :: s) :=
  ⟨_, _, rfl, by cases operation <;> decide⟩

theorem solid_closing (s : Text) : Solid (')' :: s) := ⟨_, _, rfl, by decide⟩

theorem digit_not_blank (c : Char) (digit : c.isDigit = true) : Text.isBlank c = false := by
  have lower : 48 ≤ c.toNat := (Char.isDigit_iff_toNat.1 digit).1
  have upper : c.toNat ≤ 57 := (Char.isDigit_iff_toNat.1 digit).2
  generalize size : c.toNat = n at lower upper
  simp only [Text.isBlank, size, Bool.or_eq_false_iff, Bool.and_eq_false_iff, decide_eq_false_iff_not,
    beq_eq_false_iff_ne]
  omega

theorem blank_stops (c : Char) (blank : Text.isBlank c = true) : ¬ Continues c := by
  rintro (digit | rfl | rfl | rfl)
  · exact absurd (digit_not_blank c digit) (by simp [blank])
  · exact absurd blank (by decide)
  · exact absurd blank (by decide)
  · exact absurd blank (by decide)

theorem symbol_stops (operation : Operation) : ¬ Continues operation.symbol := by
  unfold Continues
  cases operation <;> decide

theorem blanks_stop (before : Blanks) (s : Text) (stops : Stops s) : Stops (before.text ++ s) := by
  cases shape : before.text with
  | nil => exact stops
  | cons c tail => exact stops_cons c _ (blank_stops c (before.blank c (by simp [shape])))

theorem link_append (before : Blanks) (operation : Operation) (after : Blanks) (s t : Text) :
    link before operation after s ++ t = link before operation after (s ++ t) := by
  simp only [link, List.append_assoc, List.cons_append]

theorem link_stops (before : Blanks) (operation : Operation) (after : Blanks) (s : Text) :
    Stops (link before operation after s) :=
  blanks_stop before _ (stops_cons _ _ (symbol_stops operation))

theorem link_dropped (before : Blanks) (operation : Operation) (after : Blanks) (s : Text) :
    (link before operation after s).dropWhile Text.isBlank =
      operation.symbol :: (after.text ++ s) :=
  blanks_dropped before _ (solid_symbol operation _)

theorem link_unique (a b a' b' : Blanks) (o o' : Operation) (s t : Text) (left : Solid s)
    (right : Solid t) (same : link a o b s = link a' o' b' t) :
    a = a' ∧ o.symbol = o'.symbol ∧ b = b' ∧ s = t := by
  obtain ⟨before, behind⟩ := blanks_unique a a' _ _ (solid_symbol o _) (solid_symbol o' _) same
  obtain ⟨symbol, inside⟩ := List.cons.inj behind
  obtain ⟨after, rest⟩ := blanks_unique b b' s t left right inside
  exact ⟨before, symbol, after, rest⟩

theorem factors_stop (f : Factors) (s : Text) (stops : Stops s) : Stops (f.text ++ s) := by
  cases f with
  | nil => exact stops
  | cons before sign after next rest =>
      rw [Factors.text, link_append]
      exact link_stops before sign.operation after _

theorem terms_stop (t : Terms) (s : Text) (stops : Stops s) : Stops (t.text ++ s) := by
  cases t with
  | nil => exact stops
  | cons before sign after next rest =>
      rw [Terms.text, link_append]
      exact link_stops before sign.operation after _

theorem product_symbol (sign : ProductSign) :
    Formula.product? sign.operation.symbol = some sign.operation := by
  cases sign <;> rfl

theorem sum_symbol (sign : SumSign) : Formula.sum? sign.operation.symbol = some sign.operation := by
  cases sign <;> rfl

theorem product_sign (operation : Operation) (known : Formula.product? operation.symbol = some operation) :
    ∃ sign : ProductSign, sign.operation = operation := by
  cases operation with
  | mul => exact ⟨.times, rfl⟩
  | div => exact ⟨.over, rfl⟩
  | add => cases known
  | sub => cases known

theorem sum_sign (operation : Operation) (known : Formula.sum? operation.symbol = some operation) :
    ∃ sign : SumSign, sign.operation = operation := by
  cases operation with
  | add => exact ⟨.plus, rfl⟩
  | sub => exact ⟨.minus, rfl⟩
  | mul => cases known
  | div => cases known

theorem product_sign_unique (a b : ProductSign)
    (same : a.operation.symbol = b.operation.symbol) : a = b := by
  cases a <;> cases b <;> first | rfl | cases same

theorem sum_sign_unique (a b : SumSign) (same : a.operation.symbol = b.operation.symbol) : a = b := by
  cases a <;> cases b <;> first | rfl | cases same

theorem link_not_ends (operation? : Char → Option Operation) (before : Blanks) (operation : Operation)
    (after : Blanks) (s : Text) (known : operation? operation.symbol = some operation) :
    ¬ Ends operation? (link before operation after s) := by
  intro ends
  have absent := ends operation.symbol (by rw [link_dropped]; rfl)
  rw [known] at absent
  cases absent

theorem terms_end_product (t : Terms) (s : Text) (ends : Ends Formula.product? s) :
    Ends Formula.product? (t.text ++ s) := by
  cases t with
  | nil => exact ends
  | cons before sign after next rest =>
      intro c head
      rw [Terms.text, link_append, link_dropped] at head
      cases head
      cases sign <;> rfl

theorem closing_ends (operation? : Char → Option Operation) (after : Blanks) (s : Text)
    (unknown : operation? ')' = none) : Ends operation? (after.text ++ ')' :: s) := by
  intro c head
  rw [blanks_dropped after _ (solid_closing s)] at head
  cases head
  exact unknown

theorem closing_stops (after : Blanks) (s : Text) : Stops (after.text ++ ')' :: s) :=
  blanks_stop after _ (stops_cons _ _ (by unfold Continues; decide))

theorem number_head (n : Number) : ∃ c tail, n.text = c :: tail ∧ Text.isBlank c = false ∧ c ≠ '(' := by
  have mantissa : ∃ c tail, n.mantissa.text = c :: tail ∧ Text.isBlank c = false ∧ c ≠ '(' := by
    cases n.mantissa with
    | point decimals => exact ⟨'.', decimals.text, rfl, by decide, by decide⟩
    | whole digits decimals =>
        cases shape : digits.text with
        | nil => exact absurd shape digits.nonempty
        | cons c tail =>
            have digit := digits.digits c (by simp [shape])
            obtain ⟨_, _, _, _, _, notOpening⟩ := digit_no_mark c digit
            exact ⟨c, tail ++ decimalsText decimals, by simp [Mantissa.text, shape],
              digit_not_blank c digit, notOpening⟩
  obtain ⟨c, tail, shape, solid, notOpening⟩ := mantissa
  cases sign : n.sign with
  | none =>
      exact ⟨c, tail ++ powerText n.power, by simp [Number.text, sign, signText, shape], solid, notOpening⟩
  | some written =>
      cases written with
      | plus => exact ⟨'+', _, by rw [Number.text, sign]; rfl, by decide, by decide⟩
      | minus => exact ⟨'-', _, by rw [Number.text, sign]; rfl, by decide, by decide⟩

theorem number_solid (n : Number) : Solid n.text := by
  obtain ⟨c, tail, shape, solid, _⟩ := number_head n
  exact ⟨c, tail, shape, solid⟩

theorem number_not_nested (n : Number) (s t : Text) : n.text ++ s ≠ '(' :: t := by
  obtain ⟨c, tail, shape, _, notOpening⟩ := number_head n
  intro same
  rw [shape] at same
  exact notOpening (List.cons.inj same).1

theorem operand_solid (o : Operand) : Solid o.text := by
  cases o with
  | number n => exact number_solid n
  | nested before inner after => exact ⟨'(', _, rfl, by decide⟩

theorem product_solid (p : Product) : Solid p.text := by
  cases p with
  | of first rest => exact solid_append _ _ (operand_solid first)

theorem sum_solid (s : Sum) : Solid s.text := by
  cases s with
  | of first rest => exact solid_append _ _ (product_solid first)

-- The induction is on the first of two derivations. What follows each part can not continue it, so
-- both derivations end the part at the same place.
mutual
theorem operand_unique (a b : Operand) (s t : Text) (left : Stops s) (right : Stops t)
    (same : a.text ++ s = b.text ++ t) : a = b ∧ s = t := by
  cases a with
  | number n =>
      cases b with
      | number n' =>
          obtain ⟨numbers, rest⟩ := number_unique n n' s t left right same
          exact ⟨by rw [numbers], rest⟩
      | nested before' inner' after' => exact absurd same (number_not_nested n s _)
  | nested before inner after =>
      cases b with
      | number n' => exact absurd same.symm (number_not_nested n' t _)
      | nested before' inner' after' =>
          simp only [Operand.text, List.cons_append, List.append_assoc, List.cons.injEq, true_and,
            List.nil_append] at same
          obtain ⟨rfl, behind⟩ := blanks_unique before before' _ _
            (solid_append _ _ (sum_solid inner)) (solid_append _ _ (sum_solid inner')) same
          obtain ⟨rfl, closing⟩ := sum_unique inner inner' _ _ (closing_stops after s)
            (closing_stops after' t) (closing_ends _ after s rfl) (closing_ends _ after' t rfl)
            (closing_ends _ after s rfl) (closing_ends _ after' t rfl) behind
          obtain ⟨rfl, rest⟩ := blanks_unique after after' _ _ (solid_closing s) (solid_closing t) closing
          exact ⟨rfl, (List.cons.inj rest).2⟩
theorem product_unique (a b : Product) (s t : Text) (left : Stops s) (right : Stops t)
    (leftEnds : Ends Formula.product? s) (rightEnds : Ends Formula.product? t)
    (same : a.text ++ s = b.text ++ t) : a = b ∧ s = t := by
  cases a with
  | of first rest =>
      cases b with
      | of first' rest' =>
          simp only [Product.text, List.append_assoc] at same
          obtain ⟨rfl, behind⟩ := operand_unique first first' _ _ (factors_stop rest s left)
            (factors_stop rest' t right) same
          obtain ⟨rfl, tail⟩ := factors_unique rest rest' s t left right leftEnds rightEnds behind
          exact ⟨rfl, tail⟩
theorem factors_unique (a b : Factors) (s t : Text) (left : Stops s) (right : Stops t)
    (leftEnds : Ends Formula.product? s) (rightEnds : Ends Formula.product? t)
    (same : a.text ++ s = b.text ++ t) : a = b ∧ s = t := by
  cases a with
  | nil =>
      cases b with
      | nil => exact ⟨rfl, same⟩
      | cons before' sign' after' next' rest' =>
          rw [Factors.text, Factors.text, link_append, List.nil_append] at same
          exact absurd (same ▸ leftEnds) (link_not_ends _ before' _ after' _ (product_symbol sign'))
  | cons before sign after next rest =>
      cases b with
      | nil =>
          rw [Factors.text, Factors.text, link_append, List.nil_append] at same
          exact absurd (same ▸ rightEnds) (link_not_ends _ before _ after _ (product_symbol sign))
      | cons before' sign' after' next' rest' =>
          simp only [Factors.text, link_append, List.append_assoc] at same
          obtain ⟨rfl, symbol, rfl, behind⟩ := link_unique _ _ _ _ _ _ _ _
            (solid_append _ _ (operand_solid next)) (solid_append _ _ (operand_solid next')) same
          have signs := product_sign_unique sign sign' symbol
          obtain ⟨rfl, tails⟩ := operand_unique next next' _ _ (factors_stop rest s left)
            (factors_stop rest' t right) behind
          obtain ⟨rfl, final⟩ := factors_unique rest rest' s t left right leftEnds rightEnds tails
          exact ⟨by rw [signs], final⟩
theorem sum_unique (a b : Sum) (s t : Text) (left : Stops s) (right : Stops t)
    (leftEnds : Ends Formula.product? s) (rightEnds : Ends Formula.product? t)
    (leftSum : Ends Formula.sum? s) (rightSum : Ends Formula.sum? t)
    (same : a.text ++ s = b.text ++ t) : a = b ∧ s = t := by
  cases a with
  | of first rest =>
      cases b with
      | of first' rest' =>
          simp only [Sum.text, List.append_assoc] at same
          obtain ⟨rfl, behind⟩ := product_unique first first' _ _ (terms_stop rest s left)
            (terms_stop rest' t right) (terms_end_product rest s leftEnds)
            (terms_end_product rest' t rightEnds) same
          obtain ⟨rfl, tail⟩ := terms_unique rest rest' s t left right leftEnds rightEnds leftSum
            rightSum behind
          exact ⟨rfl, tail⟩
theorem terms_unique (a b : Terms) (s t : Text) (left : Stops s) (right : Stops t)
    (leftEnds : Ends Formula.product? s) (rightEnds : Ends Formula.product? t)
    (leftSum : Ends Formula.sum? s) (rightSum : Ends Formula.sum? t)
    (same : a.text ++ s = b.text ++ t) : a = b ∧ s = t := by
  cases a with
  | nil =>
      cases b with
      | nil => exact ⟨rfl, same⟩
      | cons before' sign' after' next' rest' =>
          rw [Terms.text, Terms.text, link_append, List.nil_append] at same
          exact absurd (same ▸ leftSum) (link_not_ends _ before' _ after' _ (sum_symbol sign'))
  | cons before sign after next rest =>
      cases b with
      | nil =>
          rw [Terms.text, Terms.text, link_append, List.nil_append] at same
          exact absurd (same ▸ rightSum) (link_not_ends _ before _ after _ (sum_symbol sign))
      | cons before' sign' after' next' rest' =>
          simp only [Terms.text, link_append, List.append_assoc] at same
          obtain ⟨rfl, symbol, rfl, behind⟩ := link_unique _ _ _ _ _ _ _ _
            (solid_append _ _ (product_solid next)) (solid_append _ _ (product_solid next')) same
          have signs := sum_sign_unique sign sign' symbol
          obtain ⟨rfl, tails⟩ := product_unique next next' _ _ (terms_stop rest s left)
            (terms_stop rest' t right) (terms_end_product rest s leftEnds)
            (terms_end_product rest' t rightEnds) behind
          obtain ⟨rfl, final⟩ := terms_unique rest rest' s t left right leftEnds rightEnds leftSum
            rightSum tails
          exact ⟨by rw [signs], final⟩
end

theorem blanks_dropped_alone (blanks : Blanks) : blanks.text.dropWhile Text.isBlank = [] := by
  simpa using run_dropped Text.isBlank blanks.text [] blanks.blank (by simp)

theorem blanks_end (operation? : Char → Option Operation) (blanks : Blanks) :
    Ends operation? blanks.text := by
  intro c head
  rw [blanks_dropped_alone] at head
  cases head

theorem blanks_stop_alone (blanks : Blanks) : Stops blanks.text := by
  simpa using blanks_stop blanks [] stops_nil

theorem sentence_unique (a b : Sentence) (same : a.text = b.text) : a = b := by
  obtain ⟨before, sum, after⟩ := a
  obtain ⟨before', sum', after'⟩ := b
  simp only [Sentence.text] at same
  obtain ⟨rfl, behind⟩ := blanks_unique before before' _ _ (solid_append _ _ (sum_solid sum))
    (solid_append _ _ (sum_solid sum')) same
  obtain ⟨rfl, texts⟩ := sum_unique sum sum' _ _ (blanks_stop_alone after)
    (blanks_stop_alone after') (blanks_end _ after) (blanks_end _ after') (blanks_end _ after)
    (blanks_end _ after') behind
  cases after
  cases after'
  cases texts
  rfl

end ArithTemplate.Written
