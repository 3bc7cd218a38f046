import ArithTemplate.Proofs.Written.Unique

set_option autoImplicit false

open ArithTemplate.Formula

namespace ArithTemplate.Written

theorem eat_closing (position : Nat) (s : Text) :
    Scan.eat ')' ⟨position, ')' :: s⟩ = (true, ⟨position + 1, s⟩) := rfl

-- Completeness. What a derivation writes is read strictly as its formula if the limits allow it and
-- what follows does not continue it. Blanks in front are passed, and those behind a chain as well.
mutual
theorem operand_reads (o : Operand) (depth : Nat) (nesting : o.nesting ≤ depth) (before : Blanks)
    (rest : Text) (stops : Stops rest) (position made : Nat) (room : made + o.size ≤ sizeLimit) :
    ∃ position', operandWithin .strict depth ⟨⟨position, before.text ++ (o.text ++ rest)⟩, made⟩ =
      .ok (o.formula, ⟨⟨position', rest⟩, made + o.size⟩) := by
  cases o with
  | number n =>
      have start := blanks_dropped before (n.text ++ rest) (solid_append _ _ (number_solid n))
      exact ⟨_, (operand_number _ _ _ _ _ _ rest n.literal start (number_not_nested n rest)
        (scan_of_text n rest stops)).trans (counted_room _ _ _ room)⟩
  | nested outer inner after =>
      cases depth with
      | zero => cases nesting
      | succ depth =>
          have shape : (Operand.nested outer inner after).text ++ rest =
              '(' :: (outer.text ++ (inner.text ++ (after.text ++ ')' :: rest))) := by
            simp only [Operand.text, List.cons_append, List.append_assoc, List.nil_append]
          obtain ⟨position', innerRead⟩ := sum_reads inner depth (Nat.le_of_succ_le_succ nesting) outer
            (after.text ++ ')' :: rest) (closing_stops after rest) (closing_ends _ after rest rfl)
            (closing_ends _ after rest rfl)
            (pastBlanks position (before.text ++ ((Operand.nested outer inner after).text ++ rest)) + 1)
            made room
          have start := blanks_dropped before ((Operand.nested outer inner after).text ++ rest)
            (solid_append _ _ (operand_solid _))
          rw [blanks_dropped after _ (solid_closing rest)] at innerRead
          refine ⟨position' + 1, ?_⟩
          rw [operandWithin, operand_nested _ _ _ _ _ _ (start.trans shape)]
          simp only [nestedWithin, innerRead, eat_closing]
          rfl
theorem product_reads (p : Product) (depth : Nat) (nesting : p.nesting ≤ depth) (before : Blanks)
    (rest : Text) (stops : Stops rest) (ends : Ends product? rest) (position made : Nat)
    (room : made + p.size ≤ sizeLimit) :
    ∃ position', productWithin .strict depth ⟨⟨position, before.text ++ (p.text ++ rest)⟩, made⟩ =
      .ok (p.formula, ⟨⟨position', rest.dropWhile Text.isBlank⟩, made + p.size⟩) := by
  cases p with
  | of first factors =>
      rw [Product.nesting] at nesting
      rw [Product.size] at room
      obtain ⟨middle, firstRead⟩ := operand_reads first depth (by omega) before (factors.text ++ rest)
        (factors_stop factors rest stops) position made (by omega)
      obtain ⟨position', chainRead⟩ := factors_read factors depth (by omega) rest stops ends
        (factors.text ++ rest) rfl _ (Nat.le_refl _) first.formula middle (made + first.size) (by omega)
      refine ⟨position', ?_⟩
      simp only [productWithin, chained, Product.text, List.append_assoc, firstRead, chainRead,
        Product.formula, Product.size, Nat.add_assoc]
theorem factors_read (f : Factors) (depth : Nat) (nesting : f.nesting ≤ depth) (rest : Text)
    (stops : Stops rest) (ends : Ends product? rest) (s : Text)
    (same : s.dropWhile Text.isBlank = (f.text ++ rest).dropWhile Text.isBlank) (rounds : Nat)
    (enough : s.length ≤ rounds) (left : Formula) (position made : Nat)
    (room : made + f.size ≤ sizeLimit) :
    ∃ position', chain product? (operandWithin .strict depth) rounds left ⟨⟨position, s⟩, made⟩ =
      .ok (f.joinedTo left, ⟨⟨position', rest.dropWhile Text.isBlank⟩, made + f.size⟩) := by
  cases f with
  | nil =>
      have endsHere : Ends product? s := by
        rw [Ends, same]
        exact ends
      exact ⟨_, by rw [chain_stop _ _ _ _ _ _ _ endsHere enough, same]; rfl⟩
  | cons before sign after next factors =>
      rw [Factors.nesting] at nesting
      rw [Factors.size] at room
      rw [Factors.text, link_append, link_dropped, List.append_assoc] at same
      have shorter := length_of_dropped s _ _ same
      cases rounds with
      | zero => omega
      | succ rounds =>
          obtain ⟨middle, nextRead⟩ := operand_reads next depth (by omega) after
            (factors.text ++ rest) (factors_stop factors rest stops)
            (pastBlanks position s + sign.operation.symbol.utf8Size) made (by omega)
          obtain ⟨position', chainRead⟩ := factors_read factors depth (by omega) rest stops ends
            (factors.text ++ rest) rfl rounds
            (by simp only [List.length_append] at shorter ⊢; omega)
            (.binary sign.operation left next.formula) middle (made + next.size + 1) (by omega)
          refine ⟨position', ?_⟩
          rw [chain_joined _ _ _ _ _ _ _ _ _ _ same (product_symbol sign) _ _ _ nextRead (by omega),
            chainRead, Factors.joinedTo, Factors.size]
          simp only [Nat.add_assoc]
theorem sum_reads (s : Sum) (depth : Nat) (nesting : s.nesting ≤ depth) (before : Blanks)
    (rest : Text) (stops : Stops rest) (ends : Ends product? rest) (endsSum : Ends sum? rest)
    (position made : Nat) (room : made + s.size ≤ sizeLimit) :
    ∃ position', sumWithin .strict depth ⟨⟨position, before.text ++ (s.text ++ rest)⟩, made⟩ =
      .ok (s.formula, ⟨⟨position', rest.dropWhile Text.isBlank⟩, made + s.size⟩) := by
  cases s with
  | of first terms =>
      rw [Sum.nesting] at nesting
      rw [Sum.size] at room
      obtain ⟨middle, firstRead⟩ := product_reads first depth (by omega) before (terms.text ++ rest)
        (terms_stop terms rest stops) (terms_end_product terms rest ends) position made (by omega)
      obtain ⟨position', chainRead⟩ := terms_read terms depth (by omega) rest stops ends endsSum
        ((terms.text ++ rest).dropWhile Text.isBlank) (drop_blanks_twice _) _ (Nat.le_refl _)
        first.formula middle (made + first.size) (by omega)
      refine ⟨position', ?_⟩
      simp only [sum_within, chained, Sum.text, List.append_assoc, firstRead, chainRead, Sum.formula,
        Sum.size, Nat.add_assoc]
theorem terms_read (t : Terms) (depth : Nat) (nesting : t.nesting ≤ depth) (rest : Text)
    (stops : Stops rest) (ends : Ends product? rest) (endsSum : Ends sum? rest) (s : Text)
    (same : s.dropWhile Text.isBlank = (t.text ++ rest).dropWhile Text.isBlank) (rounds : Nat)
    (enough : s.length ≤ rounds) (left : Formula) (position made : Nat)
    (room : made + t.size ≤ sizeLimit) :
    ∃ position', chain sum? (productWithin .strict depth) rounds left ⟨⟨position, s⟩, made⟩ =
      .ok (t.joinedTo left, ⟨⟨position', rest.dropWhile Text.isBlank⟩, made + t.size⟩) := by
  cases t with
  | nil =>
      have endsHere : Ends sum? s := by
        rw [Ends, same]
        exact endsSum
      exact ⟨_, by rw [chain_stop _ _ _ _ _ _ _ endsHere enough, same]; rfl⟩
  | cons before sign after next terms =>
      rw [Terms.nesting] at nesting
      rw [Terms.size] at room
      rw [Terms.text, link_append, link_dropped, List.append_assoc] at same
      have shorter := length_of_dropped s _ _ same
      cases rounds with
      | zero => omega
      | succ rounds =>
          obtain ⟨middle, nextRead⟩ := product_reads next depth (by omega) after
            (terms.text ++ rest) (terms_stop terms rest stops) (terms_end_product terms rest ends)
            (pastBlanks position s + sign.operation.symbol.utf8Size) made (by omega)
          have tail := (List.dropWhile_sublist Text.isBlank (l := terms.text ++ rest)).length_le
          obtain ⟨position', chainRead⟩ := terms_read terms depth (by omega) rest stops ends endsSum
            ((terms.text ++ rest).dropWhile Text.isBlank) (drop_blanks_twice _) rounds
            (by simp only [List.length_append] at shorter tail ⊢; omega)
            (.binary sign.operation left next.formula) middle (made + next.size + 1) (by omega)
          refine ⟨position', ?_⟩
          rw [chain_joined _ _ _ _ _ _ _ _ _ _ same (sum_symbol sign) _ _ _ nextRead (by omega),
            chainRead, Terms.joinedTo, Terms.size]
          simp only [Nat.add_assoc]
end

-- Soundness. What a reader takes of a text is blanks, an item of its level and blanks.
def Finds (read : Reader) (Item : Text → Formula → Prop) : Prop :=
  ∀ position s made f q, read ⟨⟨position, s⟩, made⟩ = .ok (f, q) →
    ∃ (before : Blanks) (t : Text) (after : Blanks),
      s = before.text ++ (t ++ (after.text ++ q.scan.rest)) ∧ Item t f ∧
        q.made = made + f.size ∧ q.made ≤ sizeLimit

def noBlanks : Blanks := ⟨[], by simp⟩

def Blanks.append (a b : Blanks) : Blanks :=
  ⟨a.text ++ b.text, fun c member => (List.mem_append.1 member).elim (a.blank c) (b.blank c)⟩

def blanksOf (s : Text) : Blanks := ⟨s.takeWhile Text.isBlank, run_inside Text.isBlank s⟩

theorem blanks_split (s : Text) : (blanksOf s).text ++ s.dropWhile Text.isBlank = s :=
  List.takeWhile_append_dropWhile

section Levels

variable (operation? : Char → Option Operation) (read : Reader)
  (Item Whole : Text → Formula → Prop) (Tail : Text → (Formula → Formula) → Prop)
  (symbol : ∀ c operation, operation? c = some operation → operation.symbol = c)
  (finds : Finds read Item)
  (nil : Tail [] id)
  (cons : ∀ before operation after t f u g, operation? operation.symbol = some operation →
    Item t f → Tail u g →
      Tail (link before operation after (t ++ u)) (fun left => g (.binary operation left f)))
  (whole : ∀ t f u g, Item t f → Tail u g → Whole (t ++ u) (g f))

include symbol finds nil cons in
-- The blanks a link starts with may have been passed before, behind the item in front of it.
theorem chain_finds (rounds : Nat) (left : Formula) (position made : Nat) (s : Text)
    (pending : Blanks) (f : Formula) (q : Progress) (fits : made ≤ sizeLimit)
    (result : chain operation? read rounds left ⟨⟨position, s⟩, made⟩ = .ok (f, q)) :
    ∃ (u : Text) (g : Formula → Formula) (after : Blanks), Tail u g ∧ f = g left ∧
      pending.text ++ s = u ++ (after.text ++ q.scan.rest) ∧
      q.made + left.size = made + f.size ∧ q.made ≤ sizeLimit := by
  induction rounds generalizing left position made s pending with
  | zero =>
      cases result
      exact ⟨[], id, pending, nil, rfl, rfl, rfl, fits⟩
  | succ rounds ih =>
      rcases ends_or_continues operation? s with ends | ⟨c, inside, operation, next, known⟩
      · rw [chain_ends _ _ _ _ _ _ _ ends] at result
        cases result
        refine ⟨[], id, pending.append (blanksOf s), nil, rfl, ?_, rfl, fits⟩
        simp only [Blanks.append, List.append_assoc, List.nil_append, blanks_split]
      · rw [chain_join _ _ _ _ _ _ _ _ _ _ next known] at result
        split at result
        · cases result
        · rename_i right p found
          obtain ⟨before, t, after, shape, item, size, _⟩ := finds _ _ _ _ _ found
          split at result
          · cases result
          · rename_i joined r count
            obtain ⟨rfl, rfl, room⟩ := counted_ok _ _ _ _ count
            obtain ⟨u, g, last, tail, formula, behind, sizes, bound⟩ :=
              ih (.binary operation left right) p.scan.position (p.made + 1) p.scan.rest after
                (by omega) result
            refine ⟨link (pending.append (blanksOf s)) operation before (t ++ u), _, last,
              cons _ _ _ _ _ _ _ (symbol c operation known ▸ known) item tail, formula, ?_, ?_, bound⟩
            · have split := blanks_split s
              rw [next, shape, behind, ← symbol c operation known] at split
              refine (congrArg (pending.text ++ ·) split.symm).trans ?_
              simp only [link, Blanks.append, List.append_assoc, List.cons_append]
            · simp only [Formula.size] at sizes
              omega

include symbol finds nil cons whole in
theorem chained_finds : Finds (chained operation? read) Whole := by
  intro position s made f q result
  unfold chained at result
  split at result
  · cases result
  · rename_i first p found
    obtain ⟨before, t, after, shape, item, size, bound⟩ := finds _ _ _ _ _ found
    obtain ⟨u, g, last, tail, formula, behind, sizes, fits⟩ :=
      chain_finds operation? read Item Tail symbol finds nil cons _ first p.scan.position p.made
        p.scan.rest after f q bound result
    refine ⟨before, t ++ u, last, ?_, formula ▸ whole _ _ _ _ item tail, by omega, fits⟩
    rw [shape, behind, List.append_assoc]

end Levels

def WritesOperand (depth : Nat) (t : Text) (f : Formula) : Prop :=
  ∃ o : Operand, o.text = t ∧ o.formula = f ∧ o.nesting ≤ depth

def WritesProduct (depth : Nat) (t : Text) (f : Formula) : Prop :=
  ∃ p : Product, p.text = t ∧ p.formula = f ∧ p.nesting ≤ depth

def WritesFactors (depth : Nat) (t : Text) (g : Formula → Formula) : Prop :=
  ∃ fs : Factors, fs.text = t ∧ fs.joinedTo = g ∧ fs.nesting ≤ depth

def WritesSum (depth : Nat) (t : Text) (f : Formula) : Prop :=
  ∃ s : Sum, s.text = t ∧ s.formula = f ∧ s.nesting ≤ depth

def WritesTerms (depth : Nat) (t : Text) (g : Formula → Formula) : Prop :=
  ∃ ts : Terms, ts.text = t ∧ ts.joinedTo = g ∧ ts.nesting ≤ depth

section Writes

variable (depth : Nat)

theorem writes_factor (before : Blanks) (operation : Operation) (after : Blanks) (t : Text)
    (f : Formula) (u : Text) (g : Formula → Formula)
    (known : product? operation.symbol = some operation) :
    WritesOperand depth t f → WritesFactors depth u g →
      WritesFactors depth (link before operation after (t ++ u))
        (fun left => g (.binary operation left f)) := by
  rintro ⟨o, rfl, rfl, nesting⟩ ⟨fs, rfl, rfl, tailNesting⟩
  obtain ⟨sign, rfl⟩ := product_sign operation known
  exact ⟨.cons before sign after o fs, rfl, rfl, Nat.max_le.2 ⟨nesting, tailNesting⟩⟩

theorem writes_product (t : Text) (f : Formula) (u : Text) (g : Formula → Formula) :
    WritesOperand depth t f → WritesFactors depth u g → WritesProduct depth (t ++ u) (g f) := by
  rintro ⟨o, rfl, rfl, nesting⟩ ⟨fs, rfl, rfl, tailNesting⟩
  exact ⟨.of o fs, rfl, rfl, Nat.max_le.2 ⟨nesting, tailNesting⟩⟩

theorem writes_term (before : Blanks) (operation : Operation) (after : Blanks) (t : Text)
    (f : Formula) (u : Text) (g : Formula → Formula)
    (known : sum? operation.symbol = some operation) :
    WritesProduct depth t f → WritesTerms depth u g →
      WritesTerms depth (link before operation after (t ++ u))
        (fun left => g (.binary operation left f)) := by
  rintro ⟨p, rfl, rfl, nesting⟩ ⟨ts, rfl, rfl, tailNesting⟩
  obtain ⟨sign, rfl⟩ := sum_sign operation known
  exact ⟨.cons before sign after p ts, rfl, rfl, Nat.max_le.2 ⟨nesting, tailNesting⟩⟩

theorem writes_sum (t : Text) (f : Formula) (u : Text) (g : Formula → Formula) :
    WritesProduct depth t f → WritesTerms depth u g → WritesSum depth (t ++ u) (g f) := by
  rintro ⟨p, rfl, rfl, nesting⟩ ⟨ts, rfl, rfl, tailNesting⟩
  exact ⟨.of p ts, rfl, rfl, Nat.max_le.2 ⟨nesting, tailNesting⟩⟩

theorem writes_no_factors : WritesFactors depth [] id := ⟨.nil, rfl, rfl, Nat.zero_le _⟩

theorem writes_no_terms : WritesTerms depth [] id := ⟨.nil, rfl, rfl, Nat.zero_le _⟩

end Writes

theorem product_finds (depth : Nat) (finds : Finds (operandWithin .strict depth) (WritesOperand depth)) :
    Finds (productWithin .strict depth) (WritesProduct depth) :=
  chained_finds product? _ (WritesOperand depth) (WritesProduct depth) (WritesFactors depth)
    symbol_of_product finds (writes_no_factors depth) (writes_factor depth) (writes_product depth)

theorem sum_finds (depth : Nat) (finds : Finds (productWithin .strict depth) (WritesProduct depth)) :
    Finds (sumWithin .strict depth) (WritesSum depth) := by
  rw [sum_within]
  exact chained_finds sum? _ (WritesProduct depth) (WritesSum depth) (WritesTerms depth)
    symbol_of_sum finds (writes_no_terms depth) (writes_term depth) (writes_sum depth)

theorem eat_some (c : Char) (scan after : Scan) (eaten : scan.eat c = (true, after)) :
    scan.rest = c :: after.rest := by
  unfold Scan.eat at eaten
  split at eaten
  · cases eaten
  · split at eaten
    · rename_i shape same
      cases eaten
      rw [shape, same]
    · cases eaten

theorem operand_finds (depth : Nat)
    (inner : ∀ below, depth = below + 1 → Finds (sumWithin .strict below) (WritesSum below)) :
    Finds (operandWithin .strict depth) (WritesOperand depth) := by
  intro position s made f q result
  unfold operandWithin at result
  have split := blanks_split s
  by_cases opening : ∃ inside, s.dropWhile Text.isBlank = '(' :: inside
  · obtain ⟨inside, start⟩ := opening
    rw [operand_nested _ _ _ _ _ inside start] at result
    cases depth with
    | zero => cases result
    | succ below =>
        simp only [nestedWithin] at result
        split at result
        · cases result
        · rename_i formula p found
          obtain ⟨before, t, after, shape, ⟨d, rfl, rfl, nesting⟩, size, bound⟩ :=
            inner below rfl _ _ _ _ _ found
          split at result
          · rename_i strict eaten
            cases result
            refine ⟨blanksOf s, _, noBlanks, ?_, ⟨.nested before d after, rfl, rfl,
              Nat.succ_le_succ nesting⟩, size, bound⟩
            rw [start, shape, eat_some _ _ _ eaten] at split
            exact split.symm.trans (by simp [Operand.text, noBlanks])
          · cases result
          · rename_i absurd
            cases absurd
  · have notOpening : ∀ inside, s.dropWhile Text.isBlank ≠ '(' :: inside :=
      fun inside same => opening ⟨inside, same⟩
    cases scanned : Literal.scan (s.dropWhile Text.isBlank) with
    | none =>
        rw [operand_missing _ _ _ _ _ _ rfl notOpening scanned] at result
        cases result
    | some pair =>
        obtain ⟨literal, rest⟩ := pair
        rw [operand_number _ _ _ _ _ _ rest literal rfl notOpening scanned] at result
        obtain ⟨rfl, rfl, room⟩ := counted_ok _ _ _ _ result
        obtain ⟨n, shape, rfl⟩ := number_of_scan _ _ _ scanned
        refine ⟨blanksOf s, n.text, noBlanks, ?_, ⟨.number n, rfl, rfl, Nat.zero_le _⟩, rfl, room⟩
        rw [shape] at split
        exact split.symm.trans (by simp [noBlanks])

theorem sum_within_finds (depth : Nat) : Finds (sumWithin .strict depth) (WritesSum depth) := by
  induction depth with
  | zero =>
      exact sum_finds 0 (product_finds 0 (operand_finds 0 fun below absurd => by cases absurd))
  | succ depth ih =>
      refine sum_finds _ (product_finds _ (operand_finds _ fun below same => ?_))
      cases same
      exact ih

theorem sentence_reads (sentence : Sentence) (nesting : sentence.nesting ≤ nestingLimit)
    (fits : sentence.formula.size ≤ sizeLimit) :
    Formula.read .strict sentence.text = .ok ⟨sentence.formula, sentence.formula.size⟩ := by
  obtain ⟨before, sum, after⟩ := sentence
  have size := sum_formula_size sum
  rw [Sentence.formula, size] at fits
  obtain ⟨position, result⟩ := sum_reads sum nestingLimit nesting before after.text
    (blanks_stop_alone after) (blanks_end _ after) (blanks_end _ after) 0 0 (by omega)
  rw [blanks_dropped_alone] at result
  simp only [Formula.read, Scan.start, Sentence.text, result, Scan.skipBlank, Scan.peek,
    List.dropWhile_nil, List.head?_nil, Nat.zero_add, Sentence.formula, size]

-- A number by itself is a sentence.
theorem number_reads (n : Number) : Formula.read .strict n.text = .ok ⟨.constant n.value, 1⟩ := by
  let sentence : Sentence := ⟨noBlanks, .of (.of (.number n) .nil) .nil, noBlanks⟩
  have text : sentence.text = n.text := by
    simp [sentence, Sentence.text, Sum.text, Product.text, Factors.text, Terms.text, Operand.text,
      noBlanks]
  have reads := sentence_reads sentence (Nat.zero_le _) (show 1 ≤ sizeLimit by decide)
  rwa [text] at reads

-- What is read of a text, with the blanks behind it, is a sentence within the limits.
theorem front_sentence (s : Text) (f : Formula) (q : Progress)
    (result : sumWithin .strict nestingLimit ⟨.start s, 0⟩ = .ok (f, q)) :
    ∃ sentence : Sentence, s = sentence.text ++ q.scan.skipBlank.rest ∧ sentence.formula = f ∧
      sentence.nesting ≤ nestingLimit ∧ q.made = f.size ∧ q.made ≤ sizeLimit := by
  obtain ⟨before, _, after, shape, ⟨sum, rfl, rfl, nesting⟩, size, fits⟩ :=
    sum_within_finds _ _ _ _ _ _ result
  refine ⟨⟨before, sum, after.append (blanksOf q.scan.rest)⟩, ?_, rfl, nesting,
    size.trans (Nat.zero_add _), fits⟩
  simp only [Sentence.text, Blanks.append, Scan.skipBlank, List.append_assoc, blanks_split]
  exact shape

theorem sentence_of_read (s : Text) (reading : Reading)
    (result : Formula.read .strict s = .ok reading) :
    ∃ sentence : Sentence, sentence.text = s ∧ sentence.nesting ≤ nestingLimit ∧
      sentence.formula.size ≤ sizeLimit ∧ reading = ⟨sentence.formula, sentence.formula.size⟩ := by
  unfold Formula.read at result
  split at result
  · cases result
  · rename_i f q found
    obtain ⟨sentence, spelled, rfl, nesting, made, fits⟩ := front_sentence s f q found
    dsimp only at result
    cases behind : q.scan.skipBlank.rest with
    | nil =>
        rw [behind, List.append_nil] at spelled
        simp [Scan.peek, behind] at result
        exact ⟨sentence, spelled.symm, nesting, made ▸ fits, by rw [← result, made]⟩
    | cons c tail => simp [Scan.peek, behind] at result

-- Reading strictly accepts the sentences of the grammar within the two limits, each with the
-- formula and the size of its derivation, and no text has two derivations.
theorem read_strict_iff_sentence :
    (∀ a b : Sentence, a.text = b.text ↔ a = b) ∧
    ∀ (s : Text) (reading : Reading), Formula.read .strict s = .ok reading ↔
      ∃ sentence : Sentence, sentence.text = s ∧ sentence.nesting ≤ nestingLimit ∧
        sentence.formula.size ≤ sizeLimit ∧ reading = ⟨sentence.formula, sentence.formula.size⟩ := by
  refine ⟨fun a b => ⟨sentence_unique a b, congrArg Sentence.text⟩, fun s reading => ?_⟩
  constructor
  · exact sentence_of_read s reading
  · intro ⟨sentence, spelled, nesting, fits, same⟩
    rw [← spelled, same]
    exact sentence_reads sentence nesting fits

end ArithTemplate.Written
