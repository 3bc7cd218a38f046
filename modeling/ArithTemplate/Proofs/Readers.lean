import ArithTemplate.Formula.Reading
import ArithTemplate.Proofs.Runs

set_option autoImplicit false

namespace ArithTemplate.Formula

-- The readers of the three levels with `depth` parentheses left to open.
def nestedWithin (strictness : Strictness) : Nat → Option Reader
  | 0 => none
  | depth + 1 => some (sumWithin strictness depth)

def operandWithin (strictness : Strictness) (depth : Nat) : Reader :=
  operand strictness (nestedWithin strictness depth)

def productWithin (strictness : Strictness) (depth : Nat) : Reader :=
  chained product? (operandWithin strictness depth)

theorem sum_within (strictness : Strictness) (depth : Nat) :
    sumWithin strictness depth = chained sum? (productWithin strictness depth) := by
  cases depth <;> rfl

-- The byte at which the blanks end that a text at `position` starts with.
def pastBlanks (position : Nat) (s : Text) : Nat :=
  position + Text.bytes (s.takeWhile Text.isBlank)

-- Behind its blanks the text does not go on with one of the operations.
def Ends (operation? : Char → Option Operation) (s : Text) : Prop :=
  ∀ c, (s.dropWhile Text.isBlank).head? = some c → operation? c = none

theorem drop_blanks_twice (s : Text) :
    (s.dropWhile Text.isBlank).dropWhile Text.isBlank = s.dropWhile Text.isBlank :=
  run_dropped Text.isBlank [] _ (by simp) (run_boundary Text.isBlank s)

theorem length_of_dropped (s inside : Text) (c : Char) (next : s.dropWhile Text.isBlank = c :: inside) :
    inside.length < s.length := by
  have shorter := (List.dropWhile_sublist Text.isBlank (l := s)).length_le
  rw [next, List.length_cons] at shorter
  omega

theorem counted_ok (formula result : Formula) (p q : Progress)
    (h : counted formula p = .ok (result, q)) :
    result = formula ∧ q = ⟨p.scan, p.made + 1⟩ ∧ p.made < sizeLimit := by
  unfold counted at h
  split at h
  · cases h
  · cases h
    exact ⟨rfl, rfl, by omega⟩

theorem counted_room (formula : Formula) (scan : Scan) (made : Nat) (room : made < sizeLimit) :
    counted formula ⟨scan, made⟩ = .ok (formula, ⟨scan, made + 1⟩) :=
  if_neg (by simpa using room)

section Operand

variable (strictness : Strictness) (nested : Option Reader) (position made : Nat) (s : Text)

theorem operand_nested (inside : Text) (start : s.dropWhile Text.isBlank = '(' :: inside) :
    operand strictness nested ⟨⟨position, s⟩, made⟩ =
      match nested with
      | none => .error ⟨.nestedTooDeep, pastBlanks position s⟩
      | some read =>
          match read ⟨⟨pastBlanks position s + 1, inside⟩, made⟩ with
          | .error e => .error e
          | .ok (formula, q) =>
              match strictness, q.scan.eat ')' with
              | .strict, (true, after) => .ok (formula, ⟨after, q.made⟩)
              | .strict, (false, _) => .error ⟨.unclosed (pastBlanks position s), q.scan.position⟩
              | .lenient, _ => .ok (formula, ⟨q.scan.bump.2, q.made⟩) := by
  simp only [operand, Scan.skipBlank, start, Scan.eat, if_true]
  rfl

theorem operand_number (behind rest : Text) (literal : Literal)
    (start : s.dropWhile Text.isBlank = behind) (notOpening : ∀ inside, behind ≠ '(' :: inside)
    (scanned : Literal.scan behind = some (literal, rest)) :
    operand strictness nested ⟨⟨position, s⟩, made⟩ =
      counted (.constant literal.value)
        ⟨⟨pastBlanks position s + (Text.bytes behind - Text.bytes rest), rest⟩, made⟩ := by
  cases behind with
  | nil => simp [Literal.scan, Literal.sign, Numeral.span, Literal.fractionSpan] at scanned
  | cons c tail =>
      have other : c ≠ '(' := fun same => notOpening tail (same ▸ rfl)
      simp only [operand, Scan.skipBlank, start, Scan.eat, if_neg other, Scan.number, scanned]
      rfl

theorem operand_missing (behind : Text) (start : s.dropWhile Text.isBlank = behind)
    (notOpening : ∀ inside, behind ≠ '(' :: inside) (scanned : Literal.scan behind = none) :
    operand strictness nested ⟨⟨position, s⟩, made⟩ =
      match strictness with
      | .lenient => counted (.constant (.zero false)) ⟨⟨pastBlanks position s, behind⟩, made⟩
      | .strict => .error ⟨.operandMissing behind.head?, pastBlanks position s⟩ := by
  cases behind with
  | nil =>
      cases strictness <;> simp [operand, Scan.skipBlank, start, Scan.eat, Scan.number, scanned,
        pastBlanks, Scan.peek]
  | cons c tail =>
      have other : c ≠ '(' := fun same => notOpening tail (same ▸ rfl)
      cases strictness <;> simp [operand, Scan.skipBlank, start, Scan.eat, other, Scan.number,
        scanned, pastBlanks, Scan.peek]

end Operand

theorem symbol_of_product (c : Char) (operation : Operation) (known : product? c = some operation) :
    operation.symbol = c := by
  unfold product? at known
  split at known <;> cases known <;> rfl

theorem symbol_of_sum (c : Char) (operation : Operation) (known : sum? c = some operation) :
    operation.symbol = c := by
  unfold sum? at known
  split at known <;> cases known <;> rfl

section Chain

variable (operation? : Char → Option Operation) (read : Reader) (rounds : Nat) (left : Formula)
  (position made : Nat) (s : Text)

theorem ends_or_continues : Ends operation? s ∨ ∃ c inside operation,
    s.dropWhile Text.isBlank = c :: inside ∧ operation? c = some operation := by
  cases shape : s.dropWhile Text.isBlank with
  | nil => exact .inl fun c head => by simp [shape] at head
  | cons c inside =>
      cases known : operation? c with
      | none => exact .inl fun d head => by simp_all
      | some operation => exact .inr ⟨c, inside, operation, rfl, known⟩

theorem chain_ends (ends : Ends operation? s) :
    chain operation? read (rounds + 1) left ⟨⟨position, s⟩, made⟩ =
      .ok (left, ⟨⟨pastBlanks position s, s.dropWhile Text.isBlank⟩, made⟩) := by
  have none : (s.dropWhile Text.isBlank).head?.bind operation? = none := by
    cases head : (s.dropWhile Text.isBlank).head? with
    | none => rfl
    | some c => exact ends c head
  simp only [chain, Scan.skipBlank, Scan.peek, none]
  rfl

theorem chain_stop (ends : Ends operation? s) (enough : s.length ≤ rounds) :
    chain operation? read rounds left ⟨⟨position, s⟩, made⟩ =
      .ok (left, ⟨⟨pastBlanks position s, s.dropWhile Text.isBlank⟩, made⟩) := by
  cases rounds with
  | zero =>
      have empty : s = [] := List.length_eq_zero_iff.1 (by omega)
      subst empty
      rfl
  | succ rounds => exact chain_ends operation? read rounds left position made s ends

theorem chain_join (inside : Text) (c : Char) (operation : Operation)
    (next : s.dropWhile Text.isBlank = c :: inside) (known : operation? c = some operation) :
    chain operation? read (rounds + 1) left ⟨⟨position, s⟩, made⟩ =
      match read ⟨⟨pastBlanks position s + c.utf8Size, inside⟩, made⟩ with
      | .error e => .error e
      | .ok (right, q) =>
          match counted (.binary operation left right) q with
          | .error e => .error e
          | .ok (joined, r) => chain operation? read rounds joined r := by
  simp only [chain, Scan.skipBlank, Scan.peek, next, List.head?_cons, Option.bind_some, known,
    Scan.bump]
  rfl

theorem chain_joined (inside : Text) (c : Char) (operation : Operation)
    (next : s.dropWhile Text.isBlank = c :: inside) (known : operation? c = some operation)
    (right : Formula) (scan : Scan) (made' : Nat)
    (result : read ⟨⟨pastBlanks position s + c.utf8Size, inside⟩, made⟩ = .ok (right, ⟨scan, made'⟩))
    (room : made' < sizeLimit) :
    chain operation? read (rounds + 1) left ⟨⟨position, s⟩, made⟩ =
      chain operation? read rounds (.binary operation left right) ⟨scan, made' + 1⟩ := by
  rw [chain_join operation? read rounds left position made s inside c operation next known, result]
  simp only [counted_room _ _ _ room]

end Chain

end ArithTemplate.Formula
