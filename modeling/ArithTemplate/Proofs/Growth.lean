import ArithTemplate.Proofs.Accounting
import ArithTemplate.Proofs.Advance
import ArithTemplate.Proofs.Failing
import ArithTemplate.Proofs.Results

set_option autoImplicit false

open ArithTemplate.Text (bytes bytes_append)

namespace ArithTemplate.Formula

section Charged

variable (strictness : Strictness)

-- What is made is charged to the bytes that are passed: to each one of them a leaf or an operation.
-- A leaf that takes no byte is charged to the operation in front of it, and the first one to none.
def Charged (p : Progress) (_ : Formula) (q : Progress) : Prop :=
  p.scan.Ahead q.scan ∧
    match strictness with
    | .strict => q.made + p.scan.position ≤ p.made + q.scan.position
    | .lenient => q.made + 2 * p.scan.position ≤ p.made + 2 * q.scan.position + 1

theorem charged_twice (p : Progress) (f : Formula) (q : Progress) (charged : Charged strictness p f q) :
    q.made + 2 * p.scan.position ≤ p.made + 2 * q.scan.position + 1 := by
  obtain ⟨passed, paid⟩ := charged
  have forward := Scan.ahead_place _ _ passed
  cases strictness with
  | strict =>
      dsimp only at paid
      omega
  | lenient => exact paid

theorem charged_stepwise : Stepwise strictness (Charged strictness) where
  number p value after read room := by
    have passed := (ahead_stepwise strictness).number p value after read room
    have skipped := Scan.ahead_place _ _ (Scan.skip_ahead p.scan)
    have moved := Scan.number_moves _ _ _ read
    refine ⟨passed, ?_⟩
    cases strictness <;> dsimp only <;> omega
  missing lenient p room := by
    have passed := (ahead_stepwise strictness).missing lenient p room
    have skipped := Scan.ahead_place _ _ passed
    refine ⟨passed, ?_⟩
    subst lenient
    dsimp only at skipped ⊢
    omega
  nested p inside f q eaten inner := by
    have start := Scan.ahead_place _ _ (Scan.eaten_ahead '(' _ _ eaten)
    have closed := Scan.ahead_place _ _ (Scan.bump_ahead q.scan)
    obtain ⟨passed, paid⟩ := inner
    refine ⟨(ahead_stepwise strictness).nested p inside f q eaten passed, ?_⟩
    cases strictness <;> dsimp only at start paid ⊢ <;> omega
  blanks p f q charged := by
    have skipped := Scan.ahead_place _ _ (Scan.skip_ahead q.scan)
    obtain ⟨passed, paid⟩ := charged
    refine ⟨(ahead_stepwise strictness).blanks p f q passed, ?_⟩
    cases strictness <;> dsimp only at paid ⊢ <;> omega
  joined p left q c operation right r first next second room := by
    have symbol := Scan.symbol_moves _ _ next
    obtain ⟨passed, paid⟩ := first
    obtain ⟨passed', paid'⟩ := second
    refine ⟨(ahead_stepwise strictness).joined p left q c operation right r passed next passed' room, ?_⟩
    cases strictness <;> dsimp only at paid paid' ⊢ <;> omega

-- A reader that has made at most two for each byte before it starts meets the limit of size only in
-- a text that is long enough.
def Beyond (p : Progress) (flaw : Flaw) : Prop :=
  flaw = .tooLarge → p.made ≤ 2 * p.scan.position → sizeLimit ≤ 2 * p.scan.textEnd

theorem beyond_later (p q : Progress) (flaw : Flaw) (passed : p.scan.Ahead q.scan)
    (afforded : p.made ≤ 2 * p.scan.position → q.made ≤ 2 * q.scan.position)
    (later : Beyond q flaw) : Beyond p flaw := by
  intro full paid
  rw [← Scan.ahead_end _ _ passed]
  exact later full (afforded paid)

theorem beyond_full (p : Progress) (full : sizeLimit ≤ p.made) : Beyond p .tooLarge := by
  intro _ paid
  have inside : p.scan.position ≤ p.scan.textEnd := Nat.le_add_right _ _
  omega

theorem beyond_failing : Failing strictness (Charged strictness) Beyond where
  toStepwise := charged_stepwise strictness
  nestedTooDeep _ := nofun
  unclosed _ _ := nofun
  operandMissing _ := nofun
  full := beyond_full
  inner p inside flaw eaten later := by
    have passed := Scan.eaten_ahead '(' _ _ eaten
    have forward := Scan.ahead_place _ _ passed
    exact beyond_later p ⟨inside, p.made⟩ flaw passed (by dsimp only; omega) later
  later p left q c flaw first next later := by
    have symbol := Scan.symbol_moves _ _ next
    have paid := charged_twice strictness p left q first
    have passed := Scan.ahead_trans _ _ _ first.1 (Scan.symbol_ahead q.scan)
    exact beyond_later p _ flaw passed (by dsimp only; omega) later
  fullJoined p left q c right r first next second full := by
    have symbol := Scan.symbol_moves _ _ next
    have paid := charged_twice strictness p left q first
    have paid' := charged_twice strictness _ right r second
    have behind := Scan.ahead_trans _ _ _ first.1 (Scan.symbol_ahead q.scan)
    have passed := Scan.ahead_trans _ _ _ behind second.1
    dsimp only at paid'
    exact beyond_later p r .tooLarge passed (by omega) (beyond_full r full)

theorem read_charged (s : Text) (reading : Reading) (result : Formula.read strictness s = .ok reading) :
    ∃ scan : Scan, scan.position ≤ bytes s ∧
      Charged strictness ⟨.start s, 0⟩ reading.formula ⟨scan, reading.made⟩ := by
  obtain ⟨scan, charged⟩ := read_keeps strictness _ (charged_stepwise strictness) s reading result
  have whole : scan.textEnd = bytes s := (Scan.ahead_end _ _ charged.1).trans (Nat.zero_add _)
  refine ⟨scan, ?_, charged⟩
  rw [← whole]
  exact Nat.le_add_right _ _

theorem read_too_large (s : Text) (e : Misfit Flaw) (result : Formula.read strictness s = .error e)
    (flaw : e.flaw = .tooLarge) : sizeLimit ≤ 2 * bytes s := by
  unfold Formula.read at result
  split at result
  · rename_i failed
    cases result
    have beyond := sum_within_fails strictness _ _ (beyond_failing strictness) nestingLimit _ _ failed
    have full := beyond flaw (Nat.zero_le _)
    rwa [Scan.textEnd, Scan.start, Nat.zero_add] at full
  · dsimp only at result
    split at result
    · cases result
      cases flaw
    · cases result

end Charged

-- Sums of one operand again and again, which may be written as nothing at all.
section Uniform

def addends (operand : Text) : Nat → Text
  | 0 => []
  | count + 1 => '+' :: (operand ++ addends operand count)

variable (operand : Text)

theorem addends_head (count : Nat) : ∀ c, (addends operand count).head? = some c → c = '+' := by
  intro c head
  cases count with
  | zero => cases head
  | succ count => exact (Option.some.inj head).symm

theorem addends_solid (count : Nat) :
    (addends operand count).dropWhile Text.isBlank = addends operand count := by
  cases count with
  | zero => rfl
  | succ count => exact List.dropWhile_cons_of_neg (by decide)

theorem addends_bytes (count : Nat) : bytes (addends operand count) = count * (bytes operand + 1) := by
  induction count with
  | zero => simp [addends, bytes]
  | succ count hypothesis =>
      have symbol : '+'.utf8Size = 1 := rfl
      rw [addends, bytes, bytes_append, hypothesis, symbol, Nat.succ_mul]
      omega

-- The reader takes the operand and makes a constant of it.
def TakesAlone (read : Reader) : Prop :=
  ∀ count position made, made < sizeLimit → ∃ value place,
    read ⟨⟨position, operand ++ addends operand count⟩, made⟩ =
      .ok (.constant value, ⟨⟨place, addends operand count⟩, made + 1⟩)

theorem product_takes_alone (read : Reader) (takes : TakesAlone operand read) :
    TakesAlone operand (chained product? read) := by
  intro count position made room
  obtain ⟨value, place, result⟩ := takes count position made room
  have ends : Ends product? (addends operand count) := by
    intro c head
    rw [addends_solid] at head
    rw [addends_head operand count c head]
    rfl
  have stays := chain_stop product? read _ (.constant value) place (made + 1) _ ends (Nat.le_refl _)
  refine ⟨value, pastBlanks place (addends operand count), ?_⟩
  simp only [chained, result, stays, addends_solid]

theorem chain_takes_addends (read : Reader) (takes : TakesAlone operand read) (count rounds : Nat)
    (left : Formula) (position made : Nat) (enough : (addends operand count).length ≤ rounds)
    (room : made + 2 * count ≤ sizeLimit) :
    ∃ f place, chain sum? read rounds left ⟨⟨position, addends operand count⟩, made⟩ =
      .ok (f, ⟨⟨place, []⟩, made + 2 * count⟩) := by
  induction count generalizing rounds left position made with
  | zero => exact ⟨left, _, chain_stop sum? read rounds left position made [] nofun enough⟩
  | succ count hypothesis =>
      obtain ⟨value, place, result⟩ := takes count (pastBlanks position _ + '+'.utf8Size) made (by omega)
      cases rounds with
      | zero => exact absurd enough (Nat.not_succ_le_zero _)
      | succ rounds =>
          have shorter : (addends operand count).length ≤ rounds := by
            simp only [addends, List.length_cons, List.length_append] at enough
            omega
          have joined := chain_joined sum? read rounds left position made _ _ '+' .add
            (addends_solid operand (count + 1)) rfl _ _ _ result (by omega)
          obtain ⟨f, stop, later⟩ := hypothesis rounds (.binary .add left (.constant value)) place
            (made + 1 + 1) shorter (by omega)
          refine ⟨f, stop, ?_⟩
          rw [joined, later, Nat.mul_succ]
          congr 3
          omega

theorem read_addends (strictness : Strictness)
    (takes : TakesAlone operand (operandWithin strictness nestingLimit)) (count : Nat)
    (room : 2 * count < sizeLimit) :
    ∃ reading, Formula.read strictness (operand ++ addends operand count) = .ok reading ∧
      reading.formula.size = 2 * count + 1 := by
  have products := product_takes_alone operand _ takes
  obtain ⟨value, place, first⟩ := products count 0 0 (by decide)
  obtain ⟨f, stop, whole⟩ := chain_takes_addends operand _ products count _ (.constant value) place 1
    (Nat.le_refl _) (by omega)
  have read : Formula.read strictness (operand ++ addends operand count) = .ok ⟨f, 1 + 2 * count⟩ := by
    have run : sumWithin strictness nestingLimit ⟨.start (operand ++ addends operand count), 0⟩ =
        .ok (f, ⟨⟨stop, []⟩, 1 + 2 * count⟩) := by
      have product : productWithin strictness nestingLimit ⟨.start (operand ++ addends operand count), 0⟩ =
          .ok (.constant value, ⟨⟨place, addends operand count⟩, 1⟩) := first
      simp only [sum_within, chained, product]
      exact whole
    unfold Formula.read
    rw [run]
    cases strictness <;> rfl
  refine ⟨_, read, ?_⟩
  rw [← (read_counts strictness _ _ read).1, Nat.add_comm]

end Uniform

theorem nothing_taken (depth : Nat) : TakesAlone [] (operandWithin .lenient depth) := by
  intro count position made room
  have notOpening : ∀ inside, addends [] count ≠ '(' :: inside := fun inside same =>
    absurd (addends_head [] count '(' (congrArg List.head? same)) (by decide)
  have unscanned : Literal.scan (addends [] count) = none := by
    match count with
    | 0 | 1 | _ + 2 => rfl
  have missing := operand_missing .lenient (nestedWithin .lenient depth) position made _ _
    (addends_solid [] count) notOpening unscanned
  exact ⟨_, _, missing.trans (counted_room _ _ _ room)⟩

theorem one_taken (depth : Nat) : TakesAlone ['1'] (operandWithin .strict depth) := by
  intro count position made room
  obtain ⟨one, written⟩ : ∃ one : Written.Number, one.text = ['1'] :=
    ⟨⟨none, .whole ⟨⟨['1'], by simp⟩, nofun⟩ none, none⟩, rfl⟩
  have stops : Written.Stops (addends ['1'] count) := by
    intro c head
    rw [addends_head ['1'] count c head]
    simp [Written.Continues]
  have solid : (one.text ++ addends ['1'] count).dropWhile Text.isBlank = one.text ++ addends ['1'] count := by
    rw [written]
    exact List.dropWhile_cons_of_neg (by decide)
  have number := operand_number .strict (nestedWithin .strict depth) position made _ _ _ _ solid
    (Written.number_not_nested one _) (Written.scan_of_text one _ stops)
  rw [written] at number
  exact ⟨_, _, number.trans (counted_room _ _ _ room)⟩

-- A formula has at most as many leaves and operations as its text has bytes, and one more than twice
-- as many where operands may be missing. Both are reached. So only a text of 2048 bytes or more can
-- be refused for the size of its formula.
theorem size_bounded_by_text :
    (∀ s reading, Formula.read .strict s = .ok reading → reading.formula.size ≤ bytes s) ∧
    (∀ s reading, Formula.read .lenient s = .ok reading →
      reading.formula.size ≤ 2 * bytes s + 1) ∧
    (∀ s, bytes s ≤ 2047 → ∀ strictness position,
      Formula.read strictness s ≠ .error ⟨.tooLarge, position⟩) ∧
    ∀ count ≤ 2047,
      (∃ s reading, bytes s = 2 * count + 1 ∧ Formula.read .strict s = .ok reading ∧
        reading.formula.size = 2 * count + 1) ∧
      ∃ s reading, bytes s = count ∧ Formula.read .lenient s = .ok reading ∧
        reading.formula.size = 2 * count + 1 := by
  refine ⟨?_, ?_, ?_, ?_⟩
  · intro s reading result
    obtain ⟨scan, inside, _, paid⟩ := read_charged .strict s reading result
    rw [← (read_counts .strict s reading result).1]
    change reading.made + 0 ≤ 0 + scan.position at paid
    omega
  · intro s reading result
    obtain ⟨scan, inside, _, paid⟩ := read_charged .lenient s reading result
    rw [← (read_counts .lenient s reading result).1]
    change reading.made + 2 * 0 ≤ 0 + 2 * scan.position + 1 at paid
    omega
  · intro s short strictness position refused
    have long := read_too_large strictness s _ refused rfl
    rw [sizeLimit] at long
    omega
  · intro count few
    have room : 2 * count < sizeLimit := by
      rw [sizeLimit]
      omega
    obtain ⟨ones, read, size⟩ := read_addends ['1'] .strict (one_taken nestingLimit) count room
    obtain ⟨zeros, read', size'⟩ := read_addends [] .lenient (nothing_taken nestingLimit) count room
    have digit : bytes ['1'] = 1 := rfl
    refine ⟨⟨_, ones, ?_, read, size⟩, _, zeros, ?_, read', size'⟩
    · rw [bytes_append, addends_bytes, digit]
      omega
    · rw [List.nil_append, addends_bytes, bytes]
      omega

-- Seven bytes hold five leaves and operations. Three signs hold as many as three bytes can, when no
-- operand is needed.
theorem three_signs_full :
    let sum : Text := ['1', '+', '(', '2', '*', '3', ')']
    let signs : Text := ['+', '+', '+']
    let number code := Formula.constant (.finite false code)
    let total := (number 0x3FF0000000000000).binary .add
      ((number 0x4000000000000000).binary .mul (number 0x4008000000000000))
    let zeros := (((number 0).binary .add (number 0)).binary .add (number 0)).binary .add (number 0)
    (Formula.read .strict sum = .ok ⟨total, 5⟩ ∧ total.size ≤ bytes sum) ∧
      (Formula.read .lenient signs = .ok ⟨zeros, 7⟩ ∧ zeros.size = 7 ∧
        zeros.size ≤ 2 * bytes signs + 1) ∧
      (bytes signs ≤ 2047 ∧ Formula.read .strict signs = .error ⟨.operandMissing (some '+'), 0⟩ ∧
        Formula.read .strict signs ≠ .error ⟨.tooLarge, 0⟩) ∧
      3 ≤ 2047 ∧ ∃ s reading, bytes s = 3 ∧ Formula.read .lenient s = .ok reading ∧
        reading.formula.size = 2 * 3 + 1 := by
  intro sum signs number total zeros
  obtain ⟨strict, lenient, short, reached⟩ := size_bounded_by_text
  have read : Formula.read .strict sum = .ok ⟨total, 5⟩ :=
    (to_option_some _ _).1 (by decide +kernel)
  have read' : Formula.read .lenient signs = .ok ⟨zeros, 7⟩ := by rfl
  have few : bytes signs ≤ 2047 := by decide
  have within : 3 ≤ 2047 := by decide
  refine ⟨⟨read, strict sum _ read⟩, ⟨read', rfl, lenient signs _ read'⟩, ⟨few, rfl, ?_⟩, within, ?_⟩
  · exact short signs few .strict 0
  · exact (reached 3 within).2

end ArithTemplate.Formula
