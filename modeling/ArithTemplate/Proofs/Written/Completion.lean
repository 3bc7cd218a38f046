import ArithTemplate.Proofs.Lenient.Extending
import ArithTemplate.Proofs.Lenient.InStep
import ArithTemplate.Proofs.Wording
import ArithTemplate.Proofs.Written.Parentheses

set_option autoImplicit false

open ArithTemplate.Text (bytes bytes_append)
open ArithTemplate.Formula

namespace ArithTemplate.Written

def closers (count : Nat) : Text := List.replicate count ')'

theorem closers_succ (count : Nat) : closers (count + 1) = closers count ++ [')'] :=
  List.replicate_succ'

-- What is missing behind the place of a flaw when this many parentheses are open there.
def completion (opened : Nat) : Flaw → Option Text
  | .unclosed _ => some (closers opened)
  | .operandMissing _ => some ('0' :: closers opened)
  | _ => none

-- What a flaw of a reader says of the place it was found at: of the parentheses `own` that are open
-- there and of the text behind it.
def Describes (depth : Nat) (own : List Nat) (rest : Text) : Flaw → Prop
  | .nestedTooDeep => own.length = depth ∧ rest.head? = some '('
  | .tooLarge => True
  | .unclosed start => own.head? = some start
  | .operandMissing found => rest.head? = found
  | .leftOver _ => False

-- A strict reader failed between the two parts of a text. With what is missing the first part is
-- all that was to be read.
structure Stuck (depth : Nat) (Whole : Text → Prop) (position : Nat) (fore rest : Text)
    (own : List Nat) (e : Misfit Flaw) : Prop where
  place : e.position = position + bytes fore
  leaves : Leaves position fore own
  describes : Describes depth own rest e.flaw
  completed : ∀ more, completion own.length e.flaw = some more → Whole (fore ++ more)

def Behind (Item : Text → Formula → Prop) (s : Text) : Prop :=
  ∃ (before : Blanks) (t : Text) (f : Formula), s = before.text ++ t ∧ Item t f

def Sticks (depth : Nat) (read : Reader) (Item : Text → Formula → Prop) : Prop :=
  ∀ position s made e, read ⟨⟨position, s⟩, made⟩ = .error e →
    ∃ fore rest own, s = fore ++ rest ∧ Stuck depth (Behind Item) position fore rest own e

section Stuck

variable (depth position : Nat) (Whole : Text → Prop)

theorem stuck_too_large (fore rest : Text) (balanced : Balanced fore) :
    Stuck depth Whole position fore rest [] ⟨.tooLarge, position + bytes fore⟩ :=
  ⟨rfl, balanced position, trivial, nofun⟩

-- What was read before the reader that failed is part of what was to be read.
theorem stuck_behind (Inner : Text → Prop) (passed fore rest : Text) (own : List Nat)
    (e : Misfit Flaw) (balanced : Balanced passed)
    (stuck : Stuck depth Inner (position + bytes passed) fore rest own e)
    (wraps : ∀ s, Inner s → Whole (passed ++ s)) :
    Stuck depth Whole position (passed ++ fore) rest own e := by
  refine ⟨?_, leaves_behind passed fore position own balanced stuck.leaves, stuck.describes, ?_⟩
  · rw [stuck.place, bytes_append, Nat.add_assoc]
  · intro more asked
    rw [List.append_assoc]
    exact wraps _ (stuck.completed more asked)

theorem completion_nested (own : List Nat) (rest : Text) (flaw : Flaw)
    (describes : Describes depth own rest flaw) (more : Text)
    (asked : completion (own.length + 1) flaw = some more) :
    ∃ inner, completion own.length flaw = some inner ∧ more = inner ++ [')'] := by
  cases flaw with
  | nestedTooDeep | tooLarge => cases asked
  | leftOver => exact describes.elim
  | unclosed start =>
      cases asked
      exact ⟨_, rfl, closers_succ own.length⟩
  | operandMissing found =>
      cases asked
      exact ⟨_, rfl, congrArg ('0' :: ·) (closers_succ own.length)⟩

theorem describes_nested (own : List Nat) (rest : Text) (flaw : Flaw)
    (describes : Describes depth own rest flaw) :
    Describes (depth + 1) (own ++ [position]) rest flaw := by
  cases flaw with
  | nestedTooDeep => exact ⟨by rw [List.length_append, describes.1]; rfl, describes.2⟩
  | tooLarge => trivial
  | leftOver => exact describes
  | operandMissing found => exact describes
  | unclosed start =>
      cases own with
      | nil => cases describes
      | cons k outer => exact describes

theorem stuck_nested (Inner : Text → Prop) (fore rest : Text) (own : List Nat) (e : Misfit Flaw)
    (stuck : Stuck depth Inner (position + 1) fore rest own e)
    (wraps : ∀ s, Inner s → Whole ('(' :: (s ++ [')']))) :
    Stuck (depth + 1) Whole position ('(' :: fore) rest (own ++ [position]) e := by
  refine ⟨?_, leaves_nested fore position own stuck.leaves,
    describes_nested depth position own rest e.flaw stuck.describes, fun more asked => ?_⟩
  · rw [stuck.place, bytes, Nat.add_assoc]
    rfl
  · rw [List.length_append] at asked
    obtain ⟨inner, wanted, rfl⟩ :=
      completion_nested depth own rest e.flaw stuck.describes more asked
    have whole := wraps _ (stuck.completed inner wanted)
    rw [List.append_assoc] at whole
    exact whole

end Stuck

-- What a reader took, blanks and an item, with the place it stopped at.
def Takes (read : Reader) (Item : Text → Formula → Prop) : Prop :=
  ∀ position s made f q, read ⟨⟨position, s⟩, made⟩ = .ok (f, q) →
    ∃ (before : Blanks) (t : Text) (after : Blanks), Item t f ∧
      s = before.text ++ (t ++ after.text) ++ q.scan.rest ∧
      q.scan.position = position + bytes (before.text ++ (t ++ after.text))

theorem takes_of_finds (read : Reader) (Item : Text → Formula → Prop) (finds : Finds read Item)
    (advances : Keeps (fun p _ q => p.scan.Ahead q.scan) read) : Takes read Item := by
  intro position s made f q result
  obtain ⟨before, t, after, shape, item, _⟩ := finds position s made f q result
  obtain ⟨passed, rest, place⟩ := advances _ _ _ result
  have spelled : s = before.text ++ (t ++ after.text) ++ q.scan.rest := by
    simp only [shape, List.append_assoc]
  have same := List.append_cancel_right (spelled.symm.trans rest)
  exact ⟨before, t, after, item, spelled, same ▸ place⟩

theorem pieces_balanced (before : Blanks) (t : Text) (after : Blanks) (balanced : Balanced t) :
    Balanced (before.text ++ (t ++ after.text)) :=
  balanced_append _ _ (balanced_blanks before)
    (balanced_append _ _ balanced (balanced_blanks after))

theorem counted_error (formula : Formula) (p : Progress) (e : Misfit Flaw)
    (failed : counted formula p = .error e) : e = ⟨.tooLarge, p.scan.position⟩ := by
  unfold counted at failed
  split at failed
  · exact (Except.error.inj failed).symm
  · cases failed

-- The blanks a text starts with and the sign behind them.
def signed (s : Text) (operation : Operation) : Text :=
  (blanksOf s).text ++ [operation.symbol]

section Signed

variable (s inside : Text) (operation : Operation)

theorem signed_split (next : s.dropWhile Text.isBlank = operation.symbol :: inside) :
    s = signed s operation ++ inside := by
  have split := blanks_split s
  rw [next] at split
  rw [signed, List.append_assoc]
  exact split.symm

theorem signed_place (position : Nat) : pastBlanks position s + operation.symbol.utf8Size =
    position + bytes (signed s operation) := by
  simp only [signed, bytes_append, pastBlanks, blanksOf, bytes, Nat.add_assoc, Nat.add_zero]

theorem signed_balanced : Balanced (signed s operation) :=
  balanced_append _ _ (balanced_blanks _) (balanced_symbol operation)

theorem signed_link (pending before : Blanks) (t : Text) :
    link (pending.append (blanksOf s)) operation before t =
      pending.text ++ (signed s operation ++ (before.text ++ t)) := by
  simp only [link, Blanks.append, signed, List.append_assoc, List.singleton_append]

end Signed

section Levels

variable (depth : Nat) (operation? : Char → Option Operation) (read : Reader)
  (Item Whole : Text → Formula → Prop) (Tail : Text → (Formula → Formula) → Prop)
  (symbol : ∀ c operation, operation? c = some operation → operation.symbol = c)
  (sticks : Sticks depth read Item) (takes : Takes read Item)
  (balanced : ∀ t f, Item t f → Balanced t)
  (nil : Tail [] id)
  (cons : ∀ before operation after t f u g, operation? operation.symbol = some operation →
    Item t f → Tail u g →
      Tail (link before operation after (t ++ u)) (fun left => g (.binary operation left f)))
  (whole : ∀ t f u g, Item t f → Tail u g → Whole (t ++ u) (g f))

include symbol sticks takes balanced nil cons in
-- The chain has come to `s` with the blanks `pending` passed behind its last item.
theorem chain_sticks (rounds : Nat) (left : Formula) (position made : Nat) (s : Text)
    (pending : Blanks) (e : Misfit Flaw)
    (result : chain operation? read rounds left ⟨⟨position, s⟩, made⟩ = .error e) :
    ∃ fore rest own, s = fore ++ rest ∧
      Stuck depth (fun t => ∃ g, Tail (pending.text ++ t) g) position fore rest own e := by
  induction rounds generalizing left position made s pending with
  | zero => cases result
  | succ rounds hypothesis =>
      rcases ends_or_continues operation? s with ends | ⟨c, inside, operation, next, known⟩
      · rw [chain_ends _ _ _ _ _ _ _ ends] at result
        cases result
      · obtain rfl := symbol c operation known
        have split := signed_split s inside operation next
        rw [chain_join _ _ _ _ _ _ _ _ _ _ next known, signed_place] at result
        split at result
        · rename_i failed
          cases result
          obtain ⟨fore, rest, own, rfl, stuck⟩ := sticks _ _ _ _ failed
          rw [← List.append_assoc] at split
          refine ⟨_, rest, own, split, stuck_behind depth position _ _ _ fore rest own e
            (signed_balanced s operation) stuck ?_⟩
          rintro _ ⟨before, t, f, rfl, item⟩
          have linked := cons (pending.append (blanksOf s)) operation before t f [] id known item nil
          rw [List.append_nil, signed_link] at linked
          exact ⟨_, linked⟩
        · rename_i right p found
          obtain ⟨before, t, after, item, rfl, arrived⟩ := takes _ _ _ _ _ found
          rw [Nat.add_assoc, ← bytes_append] at arrived
          rw [← List.append_assoc] at split
          have passed := balanced_append _ _ (signed_balanced s operation)
            (pieces_balanced before t after (balanced t right item))
          split at result
          · rename_i failed
            cases result
            rw [counted_error _ _ _ failed, arrived]
            exact ⟨_, _, [], split, stuck_too_large depth position _ _ _ passed⟩
          · rename_i joined r count
            obtain ⟨rfl, rfl, _⟩ := counted_ok _ _ _ _ count
            obtain ⟨fore, rest, own, behind, stuck⟩ :=
              hypothesis _ p.scan.position _ p.scan.rest after result
            rw [arrived] at stuck
            rw [behind, ← List.append_assoc] at split
            refine ⟨_, rest, own, split,
              stuck_behind depth position _ _ _ fore rest own e passed stuck ?_⟩
            rintro u ⟨g, tail⟩
            have linked := cons (pending.append (blanksOf s)) operation before t right _ g known item
              tail
            rw [signed_link] at linked
            simp only [List.append_assoc]
            exact ⟨_, linked⟩

include symbol sticks takes balanced nil cons whole in
theorem chained_sticks : Sticks depth (chained operation? read) Whole := by
  intro position s made e result
  unfold chained at result
  split at result
  · rename_i failed
    cases result
    obtain ⟨fore, rest, own, shape, stuck⟩ := sticks _ _ _ _ failed
    refine ⟨fore, rest, own, shape, ?_⟩
    refine stuck_behind depth position _ _ [] fore rest own e balanced_nil stuck ?_
    rintro _ ⟨before, t, f, rfl, item⟩
    exact ⟨before, t ++ [], f, by rw [List.append_nil]; rfl, whole t f [] id item nil⟩
  · rename_i first p found
    obtain ⟨before, t, after, item, rfl, arrived⟩ := takes _ _ _ _ _ found
    obtain ⟨fore, rest, own, behind, stuck⟩ := chain_sticks depth operation? read Item Tail symbol
      sticks takes balanced nil cons _ first p.scan.position p.made p.scan.rest after e result
    rw [arrived] at stuck
    rw [behind, ← List.append_assoc]
    have passed := pieces_balanced before t after (balanced t first item)
    refine ⟨_, rest, own, rfl, stuck_behind depth position _ _ _ fore rest own e passed stuck ?_⟩
    rintro u ⟨g, tail⟩
    exact ⟨before, _, _, by simp only [List.append_assoc], whole _ _ _ _ item tail⟩

end Levels

theorem operand_advances (depth : Nat) :
    Keeps (fun p _ q => p.scan.Ahead q.scan) (operandWithin .strict depth) :=
  operand_within_keeps .strict _ (ahead_stepwise .strict) depth

theorem product_advances (depth : Nat) :
    Keeps (fun p _ q => p.scan.Ahead q.scan) (productWithin .strict depth) :=
  product_within_keeps .strict _ (ahead_stepwise .strict) depth

theorem operand_within_finds (depth : Nat) :
    Finds (operandWithin .strict depth) (WritesOperand depth) :=
  operand_finds depth fun below _ => sum_within_finds below

theorem operand_takes (depth : Nat) : Takes (operandWithin .strict depth) (WritesOperand depth) :=
  takes_of_finds _ _ (operand_within_finds depth) (operand_advances depth)

theorem product_takes (depth : Nat) : Takes (productWithin .strict depth) (WritesProduct depth) :=
  takes_of_finds _ _ (product_finds depth (operand_within_finds depth)) (product_advances depth)

theorem sum_takes (depth : Nat) : Takes (sumWithin .strict depth) (WritesSum depth) :=
  takes_of_finds _ _ (sum_within_finds depth) (sum_within_advances .strict depth)

theorem product_sticks (depth : Nat)
    (sticks : Sticks depth (operandWithin .strict depth) (WritesOperand depth)) :
    Sticks depth (productWithin .strict depth) (WritesProduct depth) := by
  refine chained_sticks depth product? _ (WritesOperand depth) (WritesProduct depth)
    (WritesFactors depth) symbol_of_product sticks (operand_takes depth) ?_
    (writes_no_factors depth) (writes_factor depth) (writes_product depth)
  rintro _ _ ⟨o, rfl, _⟩
  exact operand_balanced o

theorem sum_sticks (depth : Nat)
    (sticks : Sticks depth (productWithin .strict depth) (WritesProduct depth)) :
    Sticks depth (sumWithin .strict depth) (WritesSum depth) := by
  rw [sum_within]
  refine chained_sticks depth sum? _ (WritesProduct depth) (WritesSum depth)
    (WritesTerms depth) symbol_of_sum sticks (product_takes depth) ?_
    (writes_no_terms depth) (writes_term depth) (writes_sum depth)
  rintro _ _ ⟨p, rfl, _⟩
  exact product_balanced p

-- Parentheses around blanks and a sum, with whatever blanks in front of them, are an operand.
theorem nested_behind (below : Nat) (blanks : Blanks) (after : Blanks) (s : Text)
    (inner : Behind (WritesSum below) s) :
    Behind (WritesOperand (below + 1)) (blanks.text ++ '(' :: (s ++ (after.text ++ [')']))) := by
  obtain ⟨before, _, f, rfl, sum, rfl, rfl, nesting⟩ := inner
  refine ⟨blanks, _, _, rfl, .nested before sum after, ?_, rfl, Nat.succ_le_succ nesting⟩
  simp only [Operand.text, List.append_assoc]

theorem operand_sticks (depth : Nat) (inner : ∀ below, depth = below + 1 →
    Sticks below (sumWithin .strict below) (WritesSum below)) :
    Sticks depth (operandWithin .strict depth) (WritesOperand depth) := by
  intro position s made e result
  unfold operandWithin at result
  have split := blanks_split s
  have blanks := balanced_blanks (blanksOf s)
  have place : pastBlanks position s = position + bytes (blanksOf s).text := rfl
  by_cases opening : ∃ inside, s.dropWhile Text.isBlank = '(' :: inside
  · obtain ⟨inside, start⟩ := opening
    rw [operand_nested _ _ _ _ _ inside start] at result
    rw [start] at split
    cases depth with
    | zero =>
        cases result
        exact ⟨_, _, [], split.symm, place, blanks position, ⟨rfl, rfl⟩, nofun⟩
    | succ below =>
        simp only [nestedWithin] at result
        split at result
        · rename_i failed
          cases result
          obtain ⟨fore, rest, own, rfl, stuck⟩ := inner below rfl _ _ _ _ failed
          rw [← List.cons_append, ← List.append_assoc] at split
          have nested := stuck_nested below (pastBlanks position s)
            (fun t => Behind (WritesOperand (below + 1)) ((blanksOf s).text ++ t)) _ fore rest own e
            stuck fun t => nested_behind below (blanksOf s) noBlanks t
          exact ⟨_, rest, _, split.symm,
            stuck_behind _ position _ _ _ _ rest _ e blanks nested fun _ whole => whole⟩
        · rename_i formula p found
          obtain ⟨before, t, after, item, rfl, arrived⟩ := sum_takes below _ _ _ _ _ found
          split at result
          · cases result
          · cases result
            obtain ⟨sum, rfl, rfl, nesting⟩ := item
            have inside := pieces_balanced before sum.text after (sum_balanced sum)
            have opened := leaves_nested _ (pastBlanks position s) [] (inside _)
            rw [← List.cons_append, ← List.append_assoc] at split
            refine ⟨_, _, [pastBlanks position s], split.symm, ?_,
              leaves_behind _ _ position _ blanks opened, rfl, fun more asked => ?_⟩
            · rw [arrived, place, bytes_append (blanksOf s).text, Nat.add_assoc, Nat.add_assoc]
              rfl
            · cases asked
              have whole := nested_behind below (blanksOf s) after _
                ⟨before, sum.text, sum.formula, rfl, sum, rfl, rfl, nesting⟩
              rw [List.append_assoc] at whole
              rw [List.append_assoc, List.cons_append, List.append_assoc, List.append_assoc]
              exact whole
          · cases result
  · have notOpening : ∀ inside, s.dropWhile Text.isBlank ≠ '(' :: inside :=
      fun inside same => opening ⟨inside, same⟩
    cases scanned : Literal.scan (s.dropWhile Text.isBlank) with
    | none =>
        rw [operand_missing _ _ _ _ _ _ rfl notOpening scanned] at result
        cases result
        refine ⟨_, _, [], split.symm, place, blanks position, rfl, fun more asked => ?_⟩
        cases asked
        exact ⟨blanksOf s, _, _, rfl, .number zeroNumber, rfl, rfl, Nat.zero_le _⟩
    | some pair =>
        obtain ⟨literal, rest⟩ := pair
        rw [operand_number _ _ _ _ _ _ rest literal rfl notOpening scanned] at result
        obtain ⟨n, shape, rfl⟩ := number_of_scan _ _ _ scanned
        have width : bytes (s.dropWhile Text.isBlank) - bytes rest = bytes n.text := by
          rw [shape, bytes_append]
          omega
        rw [counted_error _ _ _ result, width, place, Nat.add_assoc, ← bytes_append]
        rw [shape, ← List.append_assoc] at split
        exact ⟨_, rest, [], split.symm, stuck_too_large depth position _ _ rest
          (balanced_append _ _ blanks (balanced_number n))⟩

theorem sum_within_sticks (depth : Nat) :
    Sticks depth (sumWithin .strict depth) (WritesSum depth) := by
  induction depth with
  | zero =>
      exact sum_sticks 0 (product_sticks 0 (operand_sticks 0 nofun))
  | succ depth hypothesis =>
      refine sum_sticks _ (product_sticks _ (operand_sticks _ fun below same => ?_))
      cases same
      exact hypothesis

-- What strict reading accepts when formulas of every size are let through.
def Accepted (s : Text) (f : Formula) : Prop :=
  ∃ sentence : Sentence, sentence.text = s ∧ sentence.formula = f ∧
    sentence.nesting ≤ nestingLimit

theorem read_iff_accepted (s : Text) (reading : Reading) : Formula.read .strict s = .ok reading ↔
    Accepted s reading.formula ∧ reading.made = reading.formula.size ∧
      reading.formula.size ≤ sizeLimit := by
  constructor
  · intro result
    obtain ⟨sentence, text, nesting, fits, rfl⟩ := sentence_of_read s reading result
    exact ⟨⟨sentence, text, rfl, nesting⟩, rfl, fits⟩
  · rintro ⟨⟨sentence, rfl, formula, nesting⟩, made, fits⟩
    rw [sentence_reads sentence nesting (formula ▸ fits), formula, ← made]

theorem accepted_of_behind (s : Text) (whole : Behind (WritesSum nestingLimit) s) :
    ∃ f, Accepted s f := by
  obtain ⟨before, _, f, rfl, sum, rfl, rfl, nesting⟩ := whole
  refine ⟨sum.formula, ⟨before, sum, noBlanks⟩, ?_, rfl, nesting⟩
  rw [Sentence.text, noBlanks, List.append_nil]

theorem read_stuck (s : Text) (e : Misfit Flaw) (fails : Formula.read .strict s = .error e)
    (notLeft : ∀ found, e.flaw ≠ .leftOver found) :
    ∃ fore rest own, s = fore ++ rest ∧
      Stuck nestingLimit (Behind (WritesSum nestingLimit)) 0 fore rest own e := by
  unfold Formula.read at fails
  split at fails
  · rename_i failed
    cases fails
    exact sum_within_sticks nestingLimit 0 s 0 e failed
  · dsimp only at fails
    split at fails
    · cases fails
      exact absurd rfl (notLeft _)
    · cases fails

-- Strict reading fails where the text stops being the start of a formula: what stands in front of
-- the place can be completed, by closing the parentheses open in it and, where an operand is
-- missing, by a zero, unless there is one parenthesis too many to open. The message names the place
-- and what is found there.
theorem strict_misfit_located (s : Text) (e : Misfit Flaw)
    (fails : Formula.read .strict s = .error e) :
    (∀ t reading, Formula.read .strict t = .ok reading ↔ Accepted t reading.formula ∧
      reading.made = reading.formula.size ∧ reading.formula.size ≤ sizeLimit) ∧
    (e.message Flaw.message).toList = e.wording Flaw.wording ∧
    ∃ fore rest, s = fore ++ rest ∧ bytes fore = e.position ∧
      match e.flaw with
      | .tooLarge => True
      | .leftOver found => rest.head? = some found ∧
          ∃ reading, Formula.read .strict fore = .ok reading
      | .unclosed start => ∃ outer, openings fore = start :: outer ∧
          ∃ f, Accepted (fore ++ closers (openings fore).length) f
      | .operandMissing found => (found = none ↔ e.position = bytes s) ∧ rest.head? = found ∧
          ∃ f, Accepted (fore ++ '0' :: closers (openings fore).length) f
      | .nestedTooDeep => rest.head? = some '(' ∧ (openings fore).length = 128 := by
  refine ⟨read_iff_accepted, Worded.misfit _ _ e (.formula e.flaw), ?_⟩
  obtain ⟨flaw, position⟩ := e
  by_cases left : ∃ found, flaw = .leftOver found
  · obtain ⟨found, rfl⟩ := left
    obtain ⟨fore, rest, reading, shape, place, reads, _⟩ := read_left_over s found position fails
    exact ⟨fore, found :: rest, shape, place, rfl, reading, reads⟩
  · obtain ⟨fore, rest, own, rfl, stuck⟩ := read_stuck s _ fails fun found same => left ⟨found, same⟩
    obtain ⟨place, leaves, describes, completed⟩ := stuck
    rw [Nat.zero_add] at place
    refine ⟨fore, rest, rfl, place.symm, ?_⟩
    rw [leaves_openings fore own leaves]
    cases flaw with
    | tooLarge => trivial
    | leftOver found => exact absurd ⟨found, rfl⟩ left
    | nestedTooDeep => exact ⟨describes.2, describes.1⟩
    | unclosed start =>
        obtain ⟨outer, rfl⟩ := List.head?_eq_some_iff.1 describes
        exact ⟨outer, rfl, accepted_of_behind _ (completed _ rfl)⟩
    | operandMissing found =>
        refine ⟨?_, describes, accepted_of_behind _ (completed _ rfl)⟩
        obtain rfl : rest.head? = found := describes
        rw [show position = bytes fore from place, bytes_append, List.head?_eq_none_iff]
        cases rest with
        | nil => simp [bytes]
        | cons c tail =>
            have wide := c.utf8Size_pos
            simp only [bytes, reduceCtorEq, false_iff]
            omega

-- Two parentheses are open where this text stops, behind a blank of three bytes.
theorem unclosed_behind_blank :
    let s := ['(', '1', '+', '(', '\u3000', '2', 'x']
    Formula.read .strict s = .error ⟨.unclosed 3, 8⟩ ∧
      ∃ fore rest, s = fore ++ rest ∧ bytes fore = 8 ∧ ∃ outer, openings fore = 3 :: outer ∧
        ∃ f, Accepted (fore ++ closers (openings fore).length) f := by
  intro s
  have fails : Formula.read .strict s = .error ⟨.unclosed 3, 8⟩ := by rfl
  exact ⟨fails, (strict_misfit_located s _ fails).2.2⟩

end ArithTemplate.Written
