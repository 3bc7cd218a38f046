import ArithTemplate.Proofs.Lenient.Mended
import ArithTemplate.Proofs.Written.Unique

set_option autoImplicit false

open ArithTemplate.Written

namespace ArithTemplate.Formula

-- A lenient run that leaves `rest` and a strict run that leaves `tail`: the same formula at the same
-- count, or the same limit.
inductive InStep (rest tail : Text) :
    Except (Misfit Flaw) (Formula × Progress) → Except (Misfit Flaw) (Formula × Progress) → Prop
  | read (formula : Formula) (made position position' : Nat) :
      InStep rest tail (.ok (formula, ⟨⟨position, rest⟩, made⟩)) (.ok (formula, ⟨⟨position', tail⟩, made⟩))
  | limit (flaw : Flaw) (position position' : Nat) (known : flaw = .nestedTooDeep ∨ flaw = .tooLarge) :
      InStep rest tail (.error ⟨flaw, position⟩) (.error ⟨flaw, position'⟩)

-- What may stand behind a chain of a tier: neither blanks nor anything that would continue it.
def Settled (tier : Tier) (tail : Text) : Prop :=
  ∀ c, tail.head? = some c → Text.isBlank c = false ∧ product? c = none ∧
    (tier = .sum → sum? c = none) ∧ ¬ Continues c

-- What may stand behind an item of a tier.
def Follows : Tier → Text → Prop
  | .product, tail => Stops tail
  | .sum, tail => Settled .product tail

def itemWithin (strictness : Strictness) (depth : Nat) : Tier → Reader
  | .product => operandWithin strictness depth
  | .sum => productWithin strictness depth

-- Both readers of an item are in step, the strict one on the mended text with any `tail` behind it.
def Item (tier : Tier) (depth : Nat) : Prop :=
  ∀ (s tail : Text) (position position' made : Nat), Follows tier tail →
    InStep (mendItem tier s).rest tail (itemWithin .lenient depth tier ⟨⟨position, s⟩, made⟩)
      (itemWithin .strict depth tier ⟨⟨position', (mendItem tier s).text ++ tail⟩, made⟩)

theorem counted_in_step (formula : Formula) (rest tail : Text) (position position' made : Nat) :
    InStep rest tail (counted formula ⟨⟨position, rest⟩, made⟩)
      (counted formula ⟨⟨position', tail⟩, made⟩) := by
  unfold counted
  split
  · exact .limit _ _ _ (.inr rfl)
  · exact .read _ _ _ _

theorem in_step_then {rest tail rest' tail' : Text}
    {run run' : Except (Misfit Flaw) (Formula × Progress)}
    {next next' : Formula → Progress → Except (Misfit Flaw) (Formula × Progress)}
    (continues : ∀ formula made position position', InStep rest' tail'
      (next formula ⟨⟨position, rest⟩, made⟩) (next' formula ⟨⟨position', tail⟩, made⟩)) :
    InStep rest tail run run' → InStep rest' tail'
      (match run with
        | .error e => .error e
        | .ok (formula, q) => next formula q)
      (match run' with
        | .error e => .error e
        | .ok (formula, q) => next' formula q) := by
  intro step
  cases step with
  | read formula made position position' => exact continues formula made position position'
  | limit flaw position position' known => exact .limit flaw position position' known

theorem settled_stops (tier : Tier) (tail : Text) (settled : Settled tier tail) : Stops tail :=
  fun c head => (settled c head).2.2.2

theorem settled_dropped (tier : Tier) (tail : Text) (settled : Settled tier tail) (s : Text) :
    (leadingBlanks s ++ tail).dropWhile Text.isBlank = tail :=
  run_dropped Text.isBlank _ tail (run_inside Text.isBlank s) fun c head => (settled c head).1

theorem settled_ends (tier : Tier) (tail : Text) (settled : Settled tier tail) (s : Text) :
    Ends tier.operation? (leadingBlanks s ++ tail) := by
  intro c head
  rw [settled_dropped tier tail settled s] at head
  obtain ⟨_, noProduct, noSum, _⟩ := settled c head
  cases tier with
  | product => exact noProduct
  | sum => exact noSum rfl

theorem leading_stops (s t : Text) (stops : Stops t) : Stops (leadingBlanks s ++ t) :=
  blanks_stop ⟨_, run_inside Text.isBlank s⟩ t stops

theorem operation_solid (tier : Tier) (c : Char) (operation : Operation)
    (known : tier.operation? c = some operation) : Text.isBlank c = false ∧ ¬ Continues c := by
  have same : operation.symbol = c := by
    cases tier
    · exact symbol_of_product c operation known
    · exact symbol_of_sum c operation known
  subst same
  exact ⟨solid_head _ (solid_symbol operation []) _ rfl, symbol_stops operation⟩

-- A chain passes the blanks behind it.
theorem links_rest_fresh (tier : Tier) (s : Text) :
    leadingBlanks (mendLinks tier s).rest = [] := by
  rcases ends_or_continues tier.operation? s with ends | ⟨c, inside, operation, next, known⟩
  · rw [(mend_stop tier s ends).2]
    exact run_taken Text.isBlank [] _ (by simp) (run_boundary Text.isBlank s)
  · rw [(mend_join tier s inside c operation next known).2]
    exact links_rest_fresh tier (mendItem tier inside).rest
termination_by s.length
decreasing_by
  have shorter := length_of_dropped s inside c next
  have bound := (mendItem tier inside).within
  omega

theorem links_follow (tier : Tier) (s tail : Text) (settled : Settled tier tail) :
    Follows tier ((mendLinks tier (mendItem tier s).rest).text ++ tail) := by
  generalize between : (mendItem tier s).rest = middle
  have fresh : tier = .sum → leadingBlanks middle = [] := by
    rintro rfl
    rw [← between, mendItem, (mend_chain .product s).2]
    exact links_rest_fresh .product _
  rcases ends_or_continues tier.operation? middle with ends | ⟨c, inside, operation, next, known⟩
  · rw [(mend_stop tier middle ends).1]
    cases tier with
    | product => exact leading_stops middle tail (settled_stops .product tail settled)
    | sum =>
        rw [fresh rfl]
        exact fun c head => ⟨(settled c head).1, (settled c head).2.1,
          (fun same => by cases same), (settled c head).2.2.2⟩
  · obtain ⟨solid, stops⟩ := operation_solid tier c operation known
    rw [(mend_join tier middle inside c operation next known).1, List.append_assoc, List.cons_append]
    cases tier with
    | product => exact leading_stops middle _ (stops_cons c _ stops)
    | sum =>
        rw [fresh rfl]
        intro d head
        cases head
        refine ⟨solid, ?_, (fun same => by cases same), stops⟩
        cases symbol_of_sum c operation known
        obtain ⟨sign, rfl⟩ := sum_sign operation known
        cases sign <;> rfl

section Links

variable (tier : Tier) (depth : Nat) (item : Item tier depth) (tail : Text)
  (settled : Settled tier tail)

include item settled

-- The induction is on the rounds of the lenient run; each joins the same operand in both runs.
theorem links_in_step (rounds rounds' : Nat) (s : Text) (left : Formula) (position position' made : Nat)
    (enough : s.length ≤ rounds) (enough' : ((mendLinks tier s).text ++ tail).length ≤ rounds') :
    InStep (mendLinks tier s).rest tail
      (chain tier.operation? (itemWithin .lenient depth tier) rounds left ⟨⟨position, s⟩, made⟩)
      (chain tier.operation? (itemWithin .strict depth tier) rounds' left
        ⟨⟨position', (mendLinks tier s).text ++ tail⟩, made⟩) := by
  induction rounds generalizing s rounds' left position position' made with
  | zero =>
      have empty : s = [] := List.length_eq_zero_iff.1 (by omega)
      subst empty
      have ends : Ends tier.operation? [] := nofun
      obtain ⟨text, rest⟩ := mend_stop tier [] ends
      rw [text] at enough' ⊢
      rw [rest, chain_stop _ _ rounds' left position' made _ (settled_ends tier tail settled [])
        enough', settled_dropped tier tail settled []]
      exact .read _ _ _ _
  | succ rounds hypothesis =>
      rcases ends_or_continues tier.operation? s with ends | ⟨c, inside, operation, next, known⟩
      · obtain ⟨text, rest⟩ := mend_stop tier s ends
        rw [text] at enough' ⊢
        rw [rest, chain_stop _ _ rounds' left position' made _ (settled_ends tier tail settled s)
          enough', settled_dropped tier tail settled s,
          chain_stop _ _ (rounds + 1) left position made s ends enough]
        exact .read _ _ _ _
      · obtain ⟨text, rest⟩ := mend_join tier s inside c operation next known
        have shorter := length_of_dropped s inside c next
        have bound := (mendItem tier inside).within
        obtain ⟨solid, _⟩ := operation_solid tier c operation known
        rw [text, List.append_assoc] at enough' ⊢
        rw [rest]
        cases rounds' with
        | zero => simp at enough'
        | succ rounds' =>
            have next' : (leadingBlanks s ++ (c :: ((mendItem tier inside).text ++
                (mendLinks tier (mendItem tier inside).rest).text) ++ tail)).dropWhile Text.isBlank =
                c :: ((mendItem tier inside).text ++
                  ((mendLinks tier (mendItem tier inside).rest).text ++ tail)) := by
              rw [List.cons_append, List.append_assoc]
              exact run_dropped Text.isBlank _ _ (run_inside Text.isBlank s) fun d head => by
                cases head
                exact solid
            rw [chain_join _ _ rounds left position made s inside c operation next known,
              chain_join _ _ rounds' left position' made _ _ c operation next' known]
            refine in_step_then (fun right made' at1 at2 => ?_)
              (item inside _ _ _ made (links_follow tier inside tail settled))
            refine in_step_then (fun joined made'' at1 at2 => ?_)
              (counted_in_step _ _ _ at1 at2 made')
            refine hypothesis rounds' _ joined at1 at2 made'' (by omega) ?_
            simp only [List.length_append, List.length_cons] at enough' ⊢
            omega

theorem chain_in_step (s : Text) (position position' made : Nat) :
    InStep (mendChain tier s).rest tail
      (chained tier.operation? (itemWithin .lenient depth tier) ⟨⟨position, s⟩, made⟩)
      (chained tier.operation? (itemWithin .strict depth tier)
        ⟨⟨position', (mendChain tier s).text ++ tail⟩, made⟩) := by
  obtain ⟨text, rest⟩ := mend_chain tier s
  rw [text, rest, List.append_assoc]
  refine in_step_then (fun first made' at1 at2 => ?_)
    (item s _ position position' made (links_follow tier s tail settled))
  exact links_in_step tier depth item tail settled _ _ _ first at1 at2 made' (Nat.le_refl _)
    (Nat.le_refl _)

end Links

def zeroDigit : SomeDigits where
  text := ['0']
  digits := by
    intro c member
    cases List.mem_singleton.1 member
    rfl
  nonempty := List.cons_ne_nil _ _

def zeroNumber : Number := ⟨none, .whole zeroDigit none, none⟩

theorem zero_number_value : zeroNumber.value = .zero false := by
  have coefficient : zeroNumber.literal.magnitude.coefficient = 0 := by
    rw [Literal.magnitude, Numeral.valueInBlocks_eq_value]
    rfl
  unfold Number.value Literal.value Binary64.ofDecimal
  exact if_pos coefficient

theorem leading_dropped (s t : Text) (solid : Solid t) :
    (leadingBlanks s ++ t).dropWhile Text.isBlank = t :=
  blanks_dropped ⟨_, run_inside Text.isBlank s⟩ t solid

theorem number_in_step (n : Number) (nested : Option Reader) (rest tail s : Text)
    (position position' made : Nat) (stops : Stops tail) :
    InStep rest tail (counted (.constant n.value) ⟨⟨position, rest⟩, made⟩)
      (operand .strict nested ⟨⟨position', leadingBlanks s ++ (n.text ++ tail)⟩, made⟩) := by
  rw [operand_number .strict nested position' made _ (n.text ++ tail) tail n.literal
    (leading_dropped s _ (solid_append _ _ (number_solid n))) (number_not_nested n tail)
    (scan_of_text n tail stops)]
  exact counted_in_step _ rest tail _ _ made

theorem bump_tail (scan : Scan) : ∃ position, scan.bump.2 = ⟨position, scan.rest.tail⟩ := by
  obtain ⟨position, rest⟩ := scan
  cases rest with
  | nil => exact ⟨_, rfl⟩
  | cons c rest => exact ⟨_, rfl⟩

theorem operand_in_step (depth : Nat)
    (inner : ∀ below, depth = below + 1 → ∀ (s tail : Text) (position position' made : Nat),
      Settled .sum tail → InStep (mendChain .sum s).rest tail
        (sumWithin .lenient below ⟨⟨position, s⟩, made⟩)
        (sumWithin .strict below ⟨⟨position', (mendChain .sum s).text ++ tail⟩, made⟩)) :
    Item .product depth := by
  intro s tail position position' made stops
  rw [mendItem]
  generalize start : s.dropWhile Text.isBlank = behind
  by_cases opening : ∃ inside, behind = '(' :: inside
  · obtain ⟨inside, rfl⟩ := opening
    obtain ⟨text, rest⟩ := mend_nested s inside start
    have start' : ((mendOperand s).text ++ tail).dropWhile Text.isBlank =
        '(' :: ((mendChain .sum inside).text ++ ')' :: tail) := by
      rw [text, List.append_assoc, List.cons_append, List.append_assoc]
      exact leading_dropped s _ ⟨'(', _, rfl, by decide⟩
    simp only [itemWithin, operandWithin, operand_nested _ _ _ _ _ _ start,
      operand_nested _ _ _ _ _ _ start']
    cases depth with
    | zero => exact .limit _ _ _ (.inl rfl)
    | succ below =>
        have closes : Settled .sum (')' :: tail) := by
          intro c head
          cases head
          exact ⟨by decide, rfl, fun _ => rfl, by unfold Continues; decide⟩
        refine in_step_then (fun formula made' at1 at2 => ?_)
          (inner below rfl inside (')' :: tail) _ _ made closes)
        obtain ⟨after, bumped⟩ := bump_tail ⟨at1, (mendChain .sum inside).rest⟩
        simp only [bumped, Scan.eat, rest]
        exact .read formula made' _ _
  · have notOpening : ∀ inside, behind ≠ '(' :: inside := fun inside same => opening ⟨inside, same⟩
    cases scanned : Literal.scan behind with
    | some found =>
        obtain ⟨literal, rest⟩ := found
        obtain ⟨n, spelled, rfl⟩ := number_of_scan behind rest literal scanned
        obtain ⟨text, left⟩ := mend_number s behind start notOpening rest _ scanned
        have taken : behind.take (behind.length - rest.length) = n.text := by
          simp [spelled]
        rw [text, left, taken, List.append_assoc]
        simp only [itemWithin, operandWithin,
          operand_number _ _ _ _ s behind rest _ start notOpening scanned]
        exact number_in_step n _ rest tail s _ position' made stops
    | none =>
        obtain ⟨text, left⟩ := mend_missing s behind start notOpening scanned
        rw [text, left, List.append_assoc]
        simp only [itemWithin, operandWithin, operand_missing _ _ _ _ s behind start notOpening scanned]
        rw [← zero_number_value]
        exact number_in_step zeroNumber _ behind tail s _ position' made stops

theorem product_in_step (depth : Nat) (operands : Item .product depth) : Item .sum depth := by
  intro s tail position position' made settled
  rw [mendItem]
  exact chain_in_step .product depth operands tail settled s position position' made

theorem sum_in_step (depth : Nat) (s tail : Text) (position position' made : Nat)
    (settled : Settled .sum tail) :
    InStep (mendChain .sum s).rest tail (sumWithin .lenient depth ⟨⟨position, s⟩, made⟩)
      (sumWithin .strict depth ⟨⟨position', (mendChain .sum s).text ++ tail⟩, made⟩) := by
  induction depth generalizing s tail position position' made with
  | zero =>
      have operands : Item .product 0 := operand_in_step 0 nofun
      rw [sum_within, sum_within]
      exact chain_in_step .sum 0 (product_in_step 0 operands) tail settled s position position' made
  | succ depth hypothesis =>
      have operands : Item .product (depth + 1) := operand_in_step (depth + 1) fun below same => by
        cases same
        exact hypothesis
      rw [sum_within, sum_within]
      exact chain_in_step .sum (depth + 1) (product_in_step _ operands) tail settled s position
        position' made

theorem read_in_step (s : Text) :
    (∃ reading, Formula.read .lenient s = .ok reading ∧
        Formula.read .strict (mended s) = .ok reading) ∨
      ∃ flaw position position', (flaw = .nestedTooDeep ∨ flaw = .tooLarge) ∧
        Formula.read .lenient s = .error ⟨flaw, position⟩ ∧
        Formula.read .strict (mended s) = .error ⟨flaw, position'⟩ := by
  have step := sum_in_step nestingLimit s [] 0 0 0 nofun
  rw [List.append_nil] at step
  unfold Formula.read mended Scan.start
  generalize sumWithin .lenient nestingLimit _ = lenient at step ⊢
  generalize sumWithin .strict nestingLimit _ = strict at step ⊢
  cases step with
  | read formula made position position' => exact .inl ⟨⟨formula, made⟩, rfl, rfl⟩
  | limit flaw position position' known => exact .inr ⟨flaw, position, position', known, rfl, rfl⟩

-- Both runs meet their limits together: what `mended` writes into the text stands for formulas that
-- lenient reading counts too.
theorem read_lenient_iff_mended (s : Text) :
    (∀ reading, Formula.read .lenient s = .ok reading ↔ Formula.read .strict (mended s) = .ok reading) ∧
      ∀ flaw, (∃ position, Formula.read .lenient s = .error ⟨flaw, position⟩) ↔
        (flaw = .nestedTooDeep ∨ flaw = .tooLarge) ∧
          ∃ position, Formula.read .strict (mended s) = .error ⟨flaw, position⟩ := by
  rcases read_in_step s with ⟨reading, lenient, strict⟩ | ⟨flaw, position, position', known, lenient, strict⟩
  · simp [lenient, strict]
  · simp only [lenient, strict]
    refine ⟨by simp, fun other => ?_⟩
    constructor
    · rintro ⟨_, same⟩
      cases same
      exact ⟨known, position', rfl⟩
    · rintro ⟨_, _, same⟩
      cases same
      exact ⟨position, rfl⟩

end ArithTemplate.Formula
