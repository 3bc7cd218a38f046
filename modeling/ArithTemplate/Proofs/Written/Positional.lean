import ArithTemplate.Pattern.Basic
import ArithTemplate.Proofs.Numeral
import ArithTemplate.Proofs.Rounded.Significant
import ArithTemplate.Proofs.Written.Value

set_option autoImplicit false

namespace ArithTemplate

namespace Written

def pointed (s : Text) : Text := if s = [] then [] else '.' :: s

-- Digits on both sides of a point: no zero too many in front, and no point without a digit after it.
structure Positional where
  whole : SomeDigits
  fraction : Digits
  proper : whole.text.head? = some '0' → whole.text = ['0']

namespace Positional

variable (p : Positional)

def text : Text := p.whole.text ++ pointed p.fraction.text

def coefficient : ℕ := Numeral.value (p.whole.text ++ p.fraction.text)

def rational : ℚ := p.coefficient / 10 ^ p.fraction.text.length

-- The fraction ends where its digits do.
def Trimmed : Prop := p.fraction.text.getLast? ≠ some '0'

-- Behind a zero there are not enough digits for a number of one.
theorem zero_whole (zero : p.whole.text = ['0']) : p.coefficient < 10 ^ p.fraction.text.length := by
  have nothing : Numeral.value ['0'] = 0 := rfl
  rw [coefficient, Numeral.value_append, zero, nothing, Nat.mul_zero, Nat.zero_add]
  exact Numeral.value_below _ p.fraction.digits

theorem characters : ∀ c ∈ p.text, c.isDigit = true ∨ c = '.' := by
  refine List.forall_mem_append.2 ⟨fun c member => .inl (p.whole.digits c member), ?_⟩
  rw [pointed]
  split
  · exact nofun
  · exact List.forall_mem_cons.2 ⟨.inr rfl, fun c member => .inl (p.fraction.digits c member)⟩

end Positional

theorem proper_whole (s : Text) (single : s.length ≤ 1) (head : s.head? = some '0') : s = ['0'] := by
  obtain ⟨rest, rfl⟩ := List.head?_eq_some_iff.1 head
  have empty : rest = [] := List.length_eq_zero_iff.1 (by simpa using single)
  rw [empty]

-- A number printed to so many places; below ten there is one digit in front.
theorem fixed_positional (places n : ℕ) : ∃ p : Positional, Decimal.fixed places n = p.text ∧
    p.fraction.text.length = places ∧ p.coefficient = n ∧
      (n < 10 ^ (places + 1) → p.whole.text.length = 1) := by
  let digits := Numeral.padded (places + 1) n
  have allDigits : ∀ c ∈ digits, c.isDigit = true := Numeral.padded_digits (places + 1) n
  have length : digits.length = max (places + 1) (Numeral.ofNat n).length :=
    Numeral.padded_length _ n
  let front := digits.take (digits.length - places)
  let back := digits.drop (digits.length - places)
  have frontLength : front.length = digits.length - places := by
    simp only [front, List.length_take]
    omega
  have nonempty : front ≠ [] := by
    intro empty
    rw [empty, List.length_nil] at frontLength
    omega
  have proper : front.head? = some '0' → front = ['0'] := by
    intro head
    by_cases wide : places + 1 < digits.length
    · have first : digits.head? = some '0' := by
        rw [← List.take_append_drop (digits.length - places) digits, List.head?_append_of_ne_nil _ nonempty]
        exact head
      exact absurd first (Numeral.padded_head _ n (Nat.succ_pos _) wide)
    · exact proper_whole front (by omega) head
  have backLength : back.length = places := by
    simp only [back, List.length_drop]
    omega
  refine ⟨⟨⟨⟨front, fun c member => allDigits c (List.mem_of_mem_take member)⟩, nonempty⟩,
    ⟨back, fun c member => allDigits c (List.mem_of_mem_drop member)⟩, proper⟩, ?_, backLength, ?_, ?_⟩
  · change (if places = 0 then front else front ++ '.' :: back) = front ++ pointed back
    by_cases whole : places = 0
    · have empty : back = [] := List.length_eq_zero_iff.1 (backLength.trans whole)
      rw [if_pos whole, pointed, if_pos empty, List.append_nil]
    · have nonempty : back ≠ [] := by
        intro empty
        rw [empty] at backLength
        exact whole backLength.symm
      rw [if_neg whole, pointed, if_neg nonempty]
  · simp only [Positional.coefficient, front, back, List.take_append_drop]
    exact Numeral.value_padded _ n
  · intro small
    have short := (Numeral.length_of_nat_le_iff n (places + 1) (Nat.succ_pos _)).2 small
    change front.length = 1
    omega

-- A text without the zeros at its end.
def trimmed (s : Text) : Text := (s.reverse.dropWhile (· == '0')).reverse

theorem trimmed_splits (s : Text) : ∃ count, s = trimmed s ++ List.replicate count '0' := by
  have parts := List.takeWhile_append_dropWhile (p := (· == '0')) (l := s.reverse)
  have zeros : s.reverse.takeWhile (· == '0') =
      List.replicate (s.reverse.takeWhile (· == '0')).length '0' :=
    List.eq_replicate_of_mem fun c member => by simpa using run_inside (· == '0') s.reverse c member
  refine ⟨(s.reverse.takeWhile (· == '0')).length, ?_⟩
  have whole := congrArg List.reverse parts
  rw [List.reverse_append, List.reverse_reverse, zeros, List.reverse_replicate] at whole
  rw [trimmed]
  exact whole.symm

theorem trimmed_last (s : Text) : (trimmed s).getLast? ≠ some '0' := by
  intro last
  rw [trimmed, List.getLast?_reverse] at last
  exact absurd (run_boundary (· == '0') s.reverse '0' last) (by decide)

theorem trimmed_digits (s : Digits) : ∀ c ∈ trimmed s.text, c.isDigit = true := by
  intro c member
  obtain ⟨count, split⟩ := trimmed_splits s.text
  refine s.digits c ?_
  rw [split]
  exact List.mem_append_left _ member

-- Dropped from behind, the zeros of a fraction go up to its last other digit or to the point.
theorem zeros_dropped (whole fraction : Text) :
    (whole ++ '.' :: fraction).reverse.dropWhile (· == '0') =
      (trimmed fraction).reverse ++ '.' :: whole.reverse := by
  obtain ⟨count, split⟩ := trimmed_splits fraction
  have spelled : (whole ++ '.' :: fraction).reverse =
      List.replicate count '0' ++ ((trimmed fraction).reverse ++ '.' :: whole.reverse) := by
    nth_rewrite 1 [split]
    simp
  rw [spelled]
  refine run_dropped _ _ _ (fun c member => by rw [List.eq_of_mem_replicate member]; rfl) ?_
  intro c head
  rw [List.head?_append, List.head?_reverse] at head
  cases last : (trimmed fraction).getLast? with
  | none =>
      rw [last] at head
      cases head
      rfl
  | some d =>
      rw [last] at head
      cases head
      refine beq_eq_false_iff_ne.2 ?_
      rintro rfl
      exact trimmed_last fraction last

theorem point_not_last (s : Text) (digits : ∀ c ∈ s, c.isDigit = true) :
    ∀ c, s.reverse.head? = some c → (c == '.') = false := by
  intro c head
  have digit := digits c (List.mem_reverse.1 (List.mem_of_mem_head? head))
  exact beq_eq_false_iff_ne.2 (digit_no_mark c digit).1

theorem strip_pointed (whole : Text) (fraction : Digits)
    (digits : ∀ c ∈ whole, c.isDigit = true) :
    Directive.stripFraction (whole ++ '.' :: fraction.text) =
      whole ++ pointed (trimmed fraction.text) := by
  have point : '.' ∈ whole ++ '.' :: fraction.text := List.mem_append_right _ List.mem_cons_self
  rw [Directive.stripFraction, if_pos point, zeros_dropped]
  by_cases nothing : trimmed fraction.text = []
  · have dropped := run_dropped (· == '.') ['.'] whole.reverse (List.forall_mem_singleton.2 rfl)
      (point_not_last whole digits)
    rw [nothing, pointed, if_pos rfl, List.append_nil]
    exact (congrArg List.reverse dropped).trans (List.reverse_reverse whole)
  · have last : ∀ c, ((trimmed fraction.text).reverse ++ '.' :: whole.reverse).head? = some c →
        (c == '.') = false := by
      intro c head
      rw [List.head?_append_of_ne_nil _ (by simpa using nothing)] at head
      exact point_not_last _ (trimmed_digits fraction) c head
    have dropped := run_dropped (· == '.') [] _ nofun last
    rw [List.nil_append] at dropped
    rw [dropped, pointed, if_neg nothing]
    simp

namespace Positional

variable (p : Positional)

def trim : Positional where
  whole := p.whole
  fraction := ⟨trimmed p.fraction.text, trimmed_digits p.fraction⟩
  proper := p.proper

theorem trim_trimmed : p.trim.Trimmed := trimmed_last p.fraction.text

theorem trim_rational : p.trim.rational = p.rational := by
  obtain ⟨count, split⟩ := trimmed_splits p.fraction.text
  have coefficient : p.coefficient = 10 ^ count * p.trim.coefficient := by
    rw [Positional.coefficient, split, ← List.append_assoc, Numeral.value_append,
      List.length_replicate, Numeral.value_zeros, Nat.add_zero]
    rfl
  have length : p.fraction.text.length = p.trim.fraction.text.length + count := by
    have lengths := congrArg List.length split
    rwa [List.length_append, List.length_replicate] at lengths
  have ten : (10 : ℚ) ^ count ≠ 0 := pow_ne_zero _ (by norm_num)
  rw [rational, rational, coefficient, length, pow_add, Nat.cast_mul, mul_comm (10 ^ _ : ℚ)]
  push_cast
  rw [mul_div_mul_left _ _ ten]

-- Taking zeros off the end of the text takes them off the fraction, and the point with the last.
theorem strip_text : Directive.stripFraction p.text = p.trim.text := by
  change _ = p.whole.text ++ pointed (trimmed p.fraction.text)
  by_cases empty : p.fraction.text = []
  · have noPoint : '.' ∉ p.whole.text := fun member =>
      absurd (p.whole.digits '.' member) (by decide)
    have same : p.text = p.whole.text := by rw [text, pointed, if_pos empty, List.append_nil]
    rw [same, Directive.stripFraction, if_neg noPoint, empty]
    exact (List.append_nil _).symm
  · rw [text, pointed, if_neg empty]
    exact strip_pointed p.whole.text p.fraction p.whole.digits

end Positional

-- One digit in front of the point, and behind the fraction an exponent with its sign, in two digits
-- or as many as it needs.
structure Exponential where
  mantissa : Positional
  single : mantissa.whole.text.length = 1
  negative : Bool
  power : Digits
  enough : 2 ≤ power.text.length
  proper : 2 < power.text.length → power.text.head? ≠ some '0'

namespace Exponential

variable (e : Exponential)

def text : Text := e.mantissa.text ++ 'e' :: (if e.negative then '-' else '+') :: e.power.text

def exponent : ℤ := if e.negative then -(Numeral.value e.power.text : ℤ) else Numeral.value e.power.text

def rational : ℚ := e.mantissa.rational * 10 ^ e.exponent

theorem power_value : Numeral.value e.power.text = e.exponent.natAbs := by
  rw [exponent]
  split
  · rw [Int.natAbs_neg, Int.natAbs_natCast]
  · rw [Int.natAbs_natCast]

end Exponential

theorem positional_plain (p : Positional) : 'e' ∉ p.text := by
  intro member
  rcases p.characters 'e' member with digit | point
  · exact absurd digit (by decide)
  · exact absurd point (by decide)

theorem exponential_marked (e : Exponential) : 'e' ∈ e.text :=
  List.mem_append_right _ List.mem_cons_self

theorem exponent_exponential (p : Positional) (single : p.whole.text.length = 1) (exponent : ℤ) :
    ∃ e : Exponential, p.text ++ Directive.exponentText exponent = e.text ∧ e.mantissa = p ∧
      e.exponent = exponent := by
  let digits : Digits :=
    ⟨Numeral.padded 2 exponent.natAbs, Numeral.padded_digits 2 exponent.natAbs⟩
  have value : Numeral.value digits.text = exponent.natAbs := Numeral.value_padded 2 _
  refine ⟨⟨p, single, decide (exponent < 0), digits, Numeral.length_padded 2 _,
    Numeral.padded_head 2 _ (by decide)⟩, ?_, rfl, ?_⟩
  · simp [Exponential.text, Directive.exponentText, digits]
  · rw [Exponential.exponent, value]
    by_cases negative : exponent < 0
    · rw [if_pos (decide_eq_true negative)]
      omega
    · rw [if_neg (by simpa using negative)]
      omega

def minusSign (negative : Bool) : Option Sign := if negative then some .minus else none

theorem minus_sign (negative : Bool) : isMinus (minusSign negative) = negative ∧
    signText (minusSign negative) = if negative then ['-'] else [] := by
  cases negative <;> exact ⟨rfl, rfl⟩

section Signed

variable (negative : Bool)

def Positional.number (p : Positional) : Number where
  sign := minusSign negative
  mantissa := .whole p.whole (if p.fraction.text = [] then none else some p.fraction)
  power := none

def Exponential.number (e : Exponential) : Number where
  sign := minusSign negative
  mantissa := (e.mantissa.number negative).mantissa
  power := some ⟨false, some (if e.negative then .minus else .plus), e.power, fun empty => by
    have enough := e.enough
    rw [empty] at enough
    exact absurd enough (by decide)⟩

theorem positional_mantissa (p : Positional) : (p.number negative).mantissa.text = p.text ∧
    (p.number negative).mantissa.decimals.getD [] = p.fraction.text := by
  by_cases empty : p.fraction.text = []
  · simp [Positional.number, Positional.text, Mantissa.text, Mantissa.decimals, decimalsText, pointed,
      empty]
  · simp [Positional.number, Positional.text, Mantissa.text, Mantissa.decimals, decimalsText, pointed,
      empty]

theorem positional_number_text (p : Positional) :
    (p.number negative).text = (if negative then ['-'] else []) ++ p.text := by
  rw [Number.text, (positional_mantissa negative p).1, ← (minus_sign negative).2]
  exact congrArg (signText (minusSign negative) ++ ·) (List.append_nil _)

theorem exponential_number_text (e : Exponential) :
    (e.number negative).text = (if negative then ['-'] else []) ++ e.text := by
  have sign : signText (some (if e.negative then Sign.minus else Sign.plus)) =
      [if e.negative then '-' else '+'] := by
    cases e.negative <;> rfl
  have mantissa : (e.number negative).mantissa.text = e.mantissa.text :=
    (positional_mantissa negative e.mantissa).1
  have power : powerText (e.number negative).power =
      'e' :: (if e.negative then '-' else '+') :: e.power.text :=
    congrArg (fun s => 'e' :: (s ++ e.power.text)) sign
  rw [Number.text, mantissa, power, ← (minus_sign negative).2]
  rfl

theorem positional_number_rational (p : Positional) : (p.number negative).rational = p.rational := by
  have decimals := (positional_mantissa negative p).2
  have decimal : (p.number negative).decimal = ⟨p.coefficient, -(p.fraction.text.length : ℤ)⟩ := by
    rw [Number.decimal, decimals]
    exact congrArg (Decimal.mk p.coefficient) (zero_sub _)
  rw [Number.rational, decimal, Decimal.rational, Positional.rational, zpow_neg, zpow_natCast,
    div_eq_mul_inv]

theorem exponential_number_rational (e : Exponential) : (e.number negative).rational = e.rational := by
  have decimals : (e.number negative).mantissa.decimals.getD [] = e.mantissa.fraction.text :=
    (positional_mantissa negative e.mantissa).2
  have power : powerValue (e.number negative).power = e.exponent := by
    cases sign : e.negative <;>
      simp [Exponential.number, powerValue, Power.exponent, Exponent.signed, isMinus,
        Exponential.exponent, sign]
  have decimal : (e.number negative).decimal =
      ⟨e.mantissa.coefficient, e.exponent - e.mantissa.fraction.text.length⟩ := by
    rw [Number.decimal, decimals, power]
    rfl
  rw [Number.rational, decimal, Decimal.rational, Exponential.rational, Positional.rational,
    zpow_sub₀ (by norm_num), zpow_natCast]
  ring

variable (code : Fin 0x7FF0000000000000)

theorem positional_number_value (p : Positional) (read : Binary64.ReadAs code p.rational) :
    (p.number negative).value = .finite negative code := by
  refine (number_value_iff _ negative code ?_).2 ⟨(minus_sign negative).1, ?_⟩
  · exact fun power same => absurd (show none = some power from same) nofun
  · rwa [positional_number_rational]

-- All digits of a printed exponent count.
theorem exponential_number_value (e : Exponential) (small : e.exponent.natAbs ≤ 1074)
    (read : Binary64.ReadAs code e.rational) : (e.number negative).value = .finite negative code := by
  refine (number_value_iff _ negative code ?_).2 ⟨(minus_sign negative).1, ?_⟩
  · intro power same
    cases same
    have bound : Exponent.bound = 65536 := rfl
    have value := e.power_value
    change Numeral.value e.power.text < _
    omega
  · rwa [exponential_number_rational]

end Signed

end Written
end ArithTemplate
