import ArithTemplate.Proofs.Json.Bindings
import ArithTemplate.Proofs.Json.Exact
import ArithTemplate.Proofs.Lenient.Extending
import ArithTemplate.Proofs.Written.Longest

set_option autoImplicit false

open ArithTemplate.Binary64 (RoundsTo)

namespace ArithTemplate

namespace Written

theorem take_below (digits : Text) (n : ℕ) (isDigit : ∀ c ∈ digits, c.isDigit = true)
    (small : n < 10 * Exponent.bound) : digits.foldl Exponent.take n < 10 * Exponent.bound := by
  induction digits generalizing n with
  | nil => exact small
  | cons c rest hypothesis =>
      obtain ⟨first, later⟩ := List.forall_mem_cons.1 isDigit
      have digit := Numeral.digit_below c first
      refine hypothesis _ later ?_
      rw [Exponent.take]
      split <;> omega

end Written

namespace Json

-- An exponent that is counted in full, or has nothing to scale.
def Counted (n : Written.Number) : Prop :=
  n.decimal.coefficient = 0 ∨ Written.powerValue n.power < 10 * Exponent.bound

section Exact

variable (n : Written.Number) (exact : Exact n)

include exact

theorem counted_rounds (counted : Counted n) : RoundsTo (Written.isMinus n.sign) n.rational n.value := by
  rcases counted with nothing | short
  · exact Written.rounds_of_nothing n nothing
  · have counts (p : Written.Power) (power : n.power = some p) :
        Numeral.value p.digits.text < 10 * Exponent.bound := by
      have bound : Exponent.bound = 65536 := rfl
      cases exact with
      | whole _ unscaled _ => cases unscaled.symm.trans power
      | scaled _ within =>
          have table : exactPower = 22 := rfl
          simp only [Written.Number.decimal] at within
          rw [power, Written.powerValue, Exponent.signed] at short within
          split at short
          · rename_i minus
            rw [if_pos minus] at within
            omega
          · omega
    rw [Written.Number.rational, ← Written.literal_decimal n counts]
    exact Written.value_rounds n

-- Where an exponent is cut, the places it was to make up for are still there.
theorem cut_value (long : 10 * Exponent.bound ≤ Written.powerValue n.power) :
    n.value = .zero (Written.isMinus n.sign) := by
  have bound : Exponent.bound = 65536 := rfl
  have table : exactPower = 22 := rfl
  cases exact with
  | whole _ unscaled _ =>
      rw [unscaled] at long
      exact absurd long (by decide)
  | scaled digits within =>
      obtain ⟨p, power⟩ : ∃ p, n.power = some p := by
        cases power : n.power with
        | none =>
            rw [power] at long
            exact absurd long (by decide)
        | some p => exact ⟨p, rfl⟩
      have positive : p.exponent.negative = false := by
        refine Bool.eq_false_iff.2 fun minus => ?_
        rw [power, Written.powerValue, Exponent.signed, if_pos minus] at long
        omega
      have counted : p.exponent.counted = p.digits.text.foldl Exponent.take 0 := by
        rw [Exponent.counted, Exponent.signed, positive]
        rfl
      have written : Written.powerValue (some p) = Numeral.value p.digits.text := by
        rw [Written.powerValue, Exponent.signed, positive]
        rfl
      have exponent : n.literal.magnitude.exponent =
          p.digits.text.foldl Exponent.take 0 - (n.mantissa.decimals.getD []).length := by
        simp only [Literal.magnitude, Written.Number.literal, power, Option.map_some, Option.getD_some, counted]
      have below := Written.take_below p.digits.text 0 p.digits.digits (by decide)
      have taken := Written.take_value p.digits.text 0
      change _ = Numeral.value p.digits.text ∨ _ ∧ _ ≤ Numeral.value p.digits.text at taken
      simp only [Written.Number.decimal] at within
      rw [power, written] at long within
      have small : n.literal.magnitude.coefficient < 10 ^ 16 := by
        rw [Written.magnitude_coefficient]
        exact digits.trans_lt (by decide)
      have far : ((16 : ℕ) : ℤ) + n.literal.magnitude.exponent ≤ -324 := by
        rw [exponent]
        omega
      exact Binary64.rounds_unique _ _ _ _ (Written.value_rounds n) (Written.far_below _ _ 16 small far)

theorem exact_not_tiny (something : n.decimal.coefficient ≠ 0) (negative : Bool) :
    ¬ RoundsTo negative n.rational (.zero negative) := by
  have least : (10 : ℚ) ^ (-22 : ℤ) ≤ n.rational := by
    have one : (1 : ℚ) ≤ n.decimal.coefficient := by exact_mod_cast Nat.one_le_iff_ne_zero.2 something
    have places : -22 ≤ n.decimal.exponent := by
      cases exact with
      | whole integral unscaled _ =>
          rw [Written.Number.decimal, integral, unscaled]
          exact Int.neg_nonpos_of_nonneg (by decide)
      | scaled _ power =>
          have table : exactPower = 22 := rfl
          omega
    calc
      (10 : ℚ) ^ (-22 : ℤ) ≤ 10 ^ n.decimal.exponent := zpow_le_zpow_right₀ (by norm_num) places
      _ ≤ n.rational := le_mul_of_one_le_left (zpow_nonneg (by norm_num) _) one
  have whole : 10 ^ 22 < 2 * Binary64.unitsPerOne := by decide +kernel
  have cast : (10 : ℚ) ^ (22 : ℤ) < 2 * Binary64.unitsPerOne := by exact_mod_cast whole
  have unit := Binary64.units_per_one_pos
  have far : (1 : ℚ) < 2 * (n.rational * Binary64.unitsPerOne) := by
    calc
      (1 : ℚ) = 10 ^ (-22 : ℤ) * 10 ^ (22 : ℤ) := by rw [← zpow_add₀ (by norm_num)]; rfl
      _ < 10 ^ (-22 : ℤ) * (2 * Binary64.unitsPerOne) :=
        mul_lt_mul_of_pos_left cast (zpow_pos (by norm_num) _)
      _ ≤ n.rational * (2 * Binary64.unitsPerOne) :=
        mul_le_mul_of_nonneg_right least (mul_nonneg zero_le_two unit.le)
      _ = 2 * (n.rational * Binary64.unitsPerOne) := by ring
  rw [Binary64.zero]
  rintro (⟨_, nearest⟩)
  have one : Binary64.units 1 = 1 := rfl
  have middle : _ ≤ ((Binary64.units 0 : ℕ) : ℚ) + Binary64.units 1 := nearest.below_midpoint 1 Nat.one_pos
  rw [Binary64.units_zero, one, Nat.cast_zero, Nat.cast_one, zero_add] at middle
  exact absurd far (not_lt.2 middle)

theorem counted_reads (counted : Counted n) : Reads n n.value := by
  have bound : Exponent.bound = 65536 := rfl
  have most : largestExponent = 0x7FFFFFFF := rfl
  obtain ⟨x, reads, rounds⟩ := exact_reads n exact (counted.imp_right fun short => by omega)
  rwa [Binary64.rounds_unique _ _ _ _ (counted_rounds n exact counted) rounds]

theorem reads_counted (reads : Reads n n.value) : Counted n := by
  by_contra cut
  obtain ⟨something, long⟩ := not_or.1 cut
  have value := cut_value n exact (Int.not_lt.1 long)
  by_cases far : largestExponent < Written.powerValue n.power
  · exact exact_refused n exact something far _ reads
  · obtain ⟨x, reads', rounds⟩ := exact_reads n exact (.inr (Int.not_lt.1 far))
    rw [reads_unique n x n.value reads' reads, value] at rounds
    exact exact_not_tiny n exact something _ rounds

theorem counted_iff : Reads n n.value ↔ Counted n :=
  ⟨reads_counted n exact, counted_reads n exact⟩

end Exact

theorem read_value_iff (n : Written.Number) (strictness : Strictness) (x : Binary64) :
    Formula.read strictness n.text = .ok ⟨.constant x, 1⟩ ↔ x = n.value := by
  have reads : Formula.read strictness n.text = .ok ⟨.constant n.value, 1⟩ := by
    cases strictness with
    | strict => exact Written.number_reads n
    | lenient => exact Formula.read_extends _ _ (Written.number_reads n)
  rw [reads]
  simp [eq_comm]

theorem agrees_iff (n : Written.Number) (exact : Exact n) :
    (∃ x, Reads n x ∧ ∀ strictness, Formula.read strictness n.text = .ok ⟨.constant x, 1⟩) ↔ Counted n := by
  rw [← counted_iff n exact]
  simp only [read_value_iff]
  constructor
  · rintro ⟨x, reads, same⟩
    exact same .strict ▸ reads
  · intro reads
    exact ⟨n.value, reads, fun _ => rfl⟩

-- What is bound for a number is what it is read as in a formula, except where an exponent is cut.
theorem numbers_agree (s : Text) (pairs : List (Text × Written.Number)) (object : Object Spells s pairs)
    (names : ∀ p ∈ pairs, Bindings.IsName p.1) (exact : ∀ p ∈ pairs, Exact p.2) :
    (∀ p ∈ pairs, (∃ x, Reads p.2 x ∧
      ∀ strictness, Formula.read strictness p.2.text = .ok ⟨.constant x, 1⟩) ↔ Counted p.2) ∧
    ((∀ p ∈ pairs, Counted p.2) → ∃ found, Bindings.ofJson s = .ok found ∧
      ∀ strictness name x, (name, x) ∈ found ↔
        ∃ n, Last pairs name n ∧ Formula.read strictness n.text = .ok ⟨.constant x, 1⟩) := by
  refine ⟨fun p member => agrees_iff p.2 (exact p member), fun counted => ?_⟩
  have reads (p : Text × Written.Number) (member : p ∈ pairs) : Reads p.2 p.2.value :=
    counted_reads p.2 (exact p member) (counted p member)
  have readable (p : Text × Written.Number) (member : p ∈ pairs) : ∃ x, Reads p.2 x :=
    ⟨_, reads p member⟩
  obtain ⟨found, stores⟩ := stores_exists [] pairs readable
  obtain ⟨_, holds⟩ := Bindings.stored_holds found pairs stores
  refine ⟨found, (Bindings.of_json_iff s found).2 ⟨⟨pairs, object, stores⟩, ?_⟩, ?_⟩
  · intro b member
    obtain ⟨p, within, same⟩ := (Bindings.holds_names found pairs holds readable b.1).1 ⟨b, member, rfl⟩
    exact same ▸ names p within
  · intro strictness name x
    simp only [holds name x, read_value_iff]
    refine exists_congr fun n => and_congr_right fun last => ?_
    have value := reads (name, n) (last_member pairs name n last)
    constructor
    · exact fun reads' => reads_unique n x n.value reads' value
    · rintro rfl
      exact value

def boundAlone (n : Written.Number) : Text := ['{', '"', 'x', '"', ':'] ++ (n.text ++ ['}'])

theorem bound_alone (n : Written.Number) (isNumber : IsNumber n) :
    Object Spells (boundAlone n) [(['x'], n)] ∧ Bindings.IsName ['x'] := by
  have nothing : Blank [] := nofun
  have close : Members Spells false ['}'] [] [] := .close false [] [] nothing
  exact ⟨⟨[], _, [], rfl, nothing, nothing, .member true [] ['x'] ['x'] [] [] n.text _ _ n []
    (.first [] nothing) (spelled_plain _ rfl) nothing nothing ⟨isNumber, rfl⟩ close⟩,
    (Bindings.named_iff _).1 rfl⟩

def negativeQuarter : Written.Number :=
  let two : Written.SomeDigits := ⟨⟨['2'], List.all_eq_true.1 rfl⟩, nofun⟩
  let one : Written.SomeDigits := ⟨⟨['1'], List.all_eq_true.1 rfl⟩, nofun⟩
  ⟨some .minus, .whole two (some ⟨['5', '0'], List.all_eq_true.1 rfl⟩), some ⟨true, some .minus, one⟩⟩

theorem negative_quarter_agrees : ∃ found, Bindings.ofJson (boundAlone negativeQuarter) = .ok found ∧
    ∀ strictness name x, (name, x) ∈ found ↔ ∃ n, Last [(['x'], negativeQuarter)] name n ∧
      Formula.read strictness n.text = .ok ⟨.constant x, 1⟩ := by
  obtain ⟨object, isName⟩ := bound_alone negativeQuarter ⟨by decide, by decide, by decide, by decide⟩
  have exact : Exact negativeQuarter := .scaled (by decide) (by decide)
  have counted : Counted negativeQuarter := .inr (by decide)
  exact (numbers_agree _ _ object (List.forall_mem_singleton.2 isName) (List.forall_mem_singleton.2 exact)).2
    (List.forall_mem_singleton.2 counted)

-- A one so many places behind the point that its exponent has six digits.
def farOne (zeros : ℕ) (exponent : Written.SomeDigits) : Written.Number :=
  let zero : Written.SomeDigits := ⟨⟨['0'], List.all_eq_true.1 rfl⟩, nofun⟩
  let places : Written.Digits := ⟨List.replicate zeros '0' ++ ['1'], List.forall_mem_append.2
    ⟨fun _ member => (List.eq_of_mem_replicate member).symm ▸ rfl, List.forall_mem_singleton.2 rfl⟩⟩
  ⟨none, .whole zero (some places), some ⟨false, none, exponent⟩⟩

theorem far_one_decimal (zeros : ℕ) (exponent : Written.SomeDigits) :
    (farOne zeros exponent).decimal = ⟨1, Numeral.value exponent.text - (zeros + 1 : ℕ)⟩ := by
  have one : Numeral.value ['1'] = 1 := rfl
  have zero : Numeral.value ['0'] = 0 := rfl
  have coefficient : Numeral.value (['0'] ++ (List.replicate zeros '0' ++ ['1'])) = 1 := by
    rw [Numeral.value_append, Numeral.value_append, Numeral.value_zeros, zero, one]
    rfl
  have places : (List.replicate zeros '0' ++ ['1']).length = zeros + 1 := by
    rw [List.length_append, List.length_replicate]
    rfl
  have exponents := congrArg (fun k : ℕ => (Numeral.value exponent.text : ℤ) - k) places
  exact congr (congrArg Decimal.mk coefficient) exponents

def farNumber : Written.Number := farOne (10 * Exponent.bound + 21) Written.cutExponent

-- The exponent is counted as a tenth of what it is, which leaves too many places.
theorem far_number_differs :
    IsNumber farNumber ∧ farNumber.decimal = ⟨1, -22⟩ ∧
      Bindings.ofJson (boundAlone farNumber) = .ok [(['x'], .finite false ⟨0x3B5E392010175EE6, by decide⟩)] ∧
      ∀ strictness, Formula.read strictness farNumber.text = .ok ⟨.constant (.zero false), 1⟩ := by
  have isNumber : IsNumber farNumber := by
    refine ⟨nofun, by decide, by decide, fun empty => ?_⟩
    exact List.append_ne_nil_of_right_ne_nil _ (List.cons_ne_nil _ _) (Option.some.inj empty)
  have power : Written.powerValue farNumber.power = (10 * Exponent.bound : ℕ) := by decide
  have decimal : farNumber.decimal = ⟨1, -22⟩ := by
    have value : Numeral.value Written.cutExponent.text = 10 * Exponent.bound := by decide
    rw [farNumber, far_one_decimal, value]
    rfl
  have exact : Exact farNumber := .scaled (by rw [decimal]; decide) (by rw [decimal]; decide)
  have reads : Reads farNumber (.finite false ⟨0x3B5E392010175EE6, by decide⟩) := by
    obtain ⟨x, reads, rounds⟩ := exact_reads farNumber exact (.inr (by rw [power]; decide))
    have nearest := Binary64.of_decimal_rounds false ⟨1, -22⟩
    have code : Binary64.ofDecimal false ⟨1, -22⟩ = .finite false ⟨0x3B5E392010175EE6, by decide⟩ := by
      decide +kernel
    rw [code] at nearest
    rw [Written.Number.rational, decimal] at rounds
    rwa [Binary64.rounds_unique _ _ _ _ nearest rounds]
  refine ⟨isNumber, decimal, ?_, fun strictness => ?_⟩
  · obtain ⟨object, isName⟩ := bound_alone farNumber isNumber
    exact (Bindings.of_json_iff _ _).2
      ⟨⟨_, object, .store _ _ _ _ _ _ reads (.done _)⟩, List.forall_mem_singleton.2 isName⟩
  · exact (read_value_iff farNumber strictness _).2 (cut_value farNumber exact (by rw [power]; decide)).symm

end Json

end ArithTemplate
