import ArithTemplate.Proofs.Readers
import ArithTemplate.Proofs.Written.Number

set_option autoImplicit false

namespace ArithTemplate.Formula

-- The chains of a formula, named for what they make; the items of a sum are products.
inductive Tier where
  | product
  | sum

def Tier.operation? : Tier → Char → Option Operation
  | .product => product?
  | .sum => sum?

-- What lenient reading takes from the front of a text, put right, and the rest it leaves.
structure Mended (s : Text) where
  text : Text
  rest : Text
  within : rest.length ≤ s.length

def leadingBlanks (s : Text) : Text := s.takeWhile Text.isBlank

theorem behind_le (s behind : Text) (start : s.dropWhile Text.isBlank = behind) :
    behind.length ≤ s.length :=
  start ▸ (List.dropWhile_sublist Text.isBlank).length_le

theorem scan_le (s behind rest : Text) (literal : Literal) (within : behind.length ≤ s.length)
    (scanned : Literal.scan behind = some (literal, rest)) : rest.length ≤ s.length := by
  obtain ⟨n, rfl, _⟩ := Written.number_of_scan behind rest literal scanned
  rw [List.length_append] at within
  omega

theorem tail_le (s inside rest : Text) (smaller : inside.length < s.length)
    (within : rest.length ≤ inside.length) : rest.tail.length ≤ s.length := by
  rw [List.length_tail]
  omega

theorem links_le (s between rest : Text) (within : between.length ≤ s.length)
    (shorter : rest.length ≤ between.length) : rest.length ≤ s.length :=
  Nat.le_trans shorter within

theorem join_le (s inside between rest : Text) (smaller : inside.length < s.length)
    (within : between.length ≤ inside.length) (shorter : rest.length ≤ between.length) :
    rest.length ≤ s.length := by
  omega

-- This is lenient reading without its two limits. Where it finds no operand it writes a zero, and it
-- writes a closing parenthesis in place of the character, if any, that it takes for one.
mutual
def mendOperand (s : Text) : Mended s :=
  match start : s.dropWhile Text.isBlank with
  | '(' :: inside =>
      have smaller : inside.length < s.length := length_of_dropped s inside '(' start
      match mendChain .sum inside with
      | ⟨inner, rest, within⟩ =>
          ⟨leadingBlanks s ++ '(' :: (inner ++ [')']), rest.tail, tail_le s inside rest smaller within⟩
  | behind =>
      have bound := behind_le s behind start
      match scanned : Literal.scan behind with
      | some (literal, rest) => ⟨leadingBlanks s ++ behind.take (behind.length - rest.length), rest,
          scan_le s behind rest literal bound scanned⟩
      | none => ⟨leadingBlanks s ++ ['0'], behind, bound⟩
termination_by 5 * s.length
def mendItem (tier : Tier) (s : Text) : Mended s :=
  match tier with
  | .product => mendOperand s
  | .sum => mendChain .product s
termination_by 5 * s.length + (match tier with | .product => 1 | .sum => 3)
def mendChain (tier : Tier) (s : Text) : Mended s :=
  match mendItem tier s with
  | ⟨first, between, within⟩ =>
      match mendLinks tier between with
      | ⟨links, rest, shorter⟩ => ⟨first ++ links, rest, links_le s between rest within shorter⟩
termination_by 5 * s.length + (match tier with | .product => 2 | .sum => 4)
decreasing_by
  · cases tier <;> simp
  · cases tier <;> simp <;> omega
def mendLinks (tier : Tier) (s : Text) : Mended s :=
  match next : s.dropWhile Text.isBlank with
  | [] => ⟨leadingBlanks s, [], behind_le s [] next⟩
  | c :: inside =>
      have smaller : inside.length < s.length := length_of_dropped s inside c next
      have bound : (c :: inside).length ≤ s.length := behind_le s (c :: inside) next
      match tier.operation? c with
      | none => ⟨leadingBlanks s, c :: inside, bound⟩
      | some _ =>
          match mendItem tier inside with
          | ⟨item, between, within⟩ =>
              match mendLinks tier between with
              | ⟨links, rest, shorter⟩ => ⟨leadingBlanks s ++ c :: (item ++ links), rest,
                  join_le s inside between rest smaller within shorter⟩
termination_by 5 * s.length
decreasing_by
  · cases tier <;> simp <;> omega
  · omega
end

-- The text that strict reading reads as lenient reading reads `s`. What lenient reading leaves unread
-- is not part of it.
def mended (s : Text) : Text := (mendChain .sum s).text

theorem mend_nested (s inside : Text) (start : s.dropWhile Text.isBlank = '(' :: inside) :
    (mendOperand s).text = leadingBlanks s ++ '(' :: ((mendChain .sum inside).text ++ [')']) ∧
      (mendOperand s).rest = (mendChain .sum inside).rest.tail := by
  rw [mendOperand]
  split
  · rename_i inside' start'
    cases start.symm.trans start'
    exact ⟨rfl, rfl⟩
  · rename_i other
    exact absurd start (other inside)

section Operand

variable (s behind : Text) (start : s.dropWhile Text.isBlank = behind)
  (notOpening : ∀ inside, behind ≠ '(' :: inside)

include start notOpening in
theorem mend_number (rest : Text) (literal : Literal)
    (scanned : Literal.scan behind = some (literal, rest)) :
    (mendOperand s).text = leadingBlanks s ++ behind.take (behind.length - rest.length) ∧
      (mendOperand s).rest = rest := by
  subst start
  rw [mendOperand]
  split
  · rename_i inside start
    exact absurd start (notOpening inside)
  · split
    · rename_i scanned'
      cases scanned.symm.trans scanned'
      exact ⟨rfl, rfl⟩
    · rename_i scanned'
      cases scanned.symm.trans scanned'

include start notOpening in
theorem mend_missing (scanned : Literal.scan behind = none) :
    (mendOperand s).text = leadingBlanks s ++ ['0'] ∧ (mendOperand s).rest = behind := by
  subst start
  rw [mendOperand]
  split
  · rename_i inside start
    exact absurd start (notOpening inside)
  · split
    · rename_i scanned'
      cases scanned.symm.trans scanned'
    · exact ⟨rfl, rfl⟩

end Operand

theorem mend_chain (tier : Tier) (s : Text) :
    (mendChain tier s).text = (mendItem tier s).text ++ (mendLinks tier (mendItem tier s).rest).text ∧
      (mendChain tier s).rest = (mendLinks tier (mendItem tier s).rest).rest := by
  rw [mendChain]
  exact ⟨rfl, rfl⟩

theorem mend_stop (tier : Tier) (s : Text) (ends : Ends tier.operation? s) :
    (mendLinks tier s).text = leadingBlanks s ∧ (mendLinks tier s).rest = s.dropWhile Text.isBlank := by
  rw [mendLinks]
  split
  · rename_i next
    exact ⟨rfl, next.symm⟩
  · rename_i c inside next
    have unknown := ends c (by rw [next]; rfl)
    rw [unknown]
    exact ⟨rfl, next.symm⟩

theorem mend_join (tier : Tier) (s inside : Text) (c : Char) (operation : Operation)
    (next : s.dropWhile Text.isBlank = c :: inside) (known : tier.operation? c = some operation) :
    (mendLinks tier s).text = leadingBlanks s ++ c :: ((mendItem tier inside).text ++
        (mendLinks tier (mendItem tier inside).rest).text) ∧
      (mendLinks tier s).rest = (mendLinks tier (mendItem tier inside).rest).rest := by
  rw [mendLinks]
  split
  · rename_i next'
    cases next.symm.trans next'
  · rename_i c' inside' next'
    cases next.symm.trans next'
    rw [known]
    exact ⟨rfl, rfl⟩

end ArithTemplate.Formula
