import ArithTemplate.Proofs.Pattern.Rounded
import ArithTemplate.Proofs.Written.Reading

set_option autoImplicit false

open ArithTemplate.Written

namespace ArithTemplate

-- What a directive prints is read as the number it was printed from.
def Directive.ReadsBack (conversion : Conversion) (precision : ℕ) : Prop :=
  let pattern : Pattern := ⟨[], Directive.bare conversion precision, []⟩
  Pattern.read (Directive.bareText conversion precision) = .ok pattern ∧
    ∀ (negative : Bool) (code : Fin 0x7FF0000000000000),
      Formula.read .strict (pattern.render (.finite negative code)) =
        .ok ⟨.constant (.finite negative code), 1⟩

namespace Directive

theorem bare_pattern (conversion : Conversion) (precision : ℕ) (negative : Bool)
    (code : Fin 0x7FF0000000000000) :
    Pattern.render ⟨[], bare conversion precision, []⟩ (.finite negative code) =
      (if negative then ['-'] else []) ++
        (bare conversion precision).body (.finite negative code) := by
  rw [← bare_render]
  exact List.append_nil _

variable (precision : ℕ) (limit : precision ≤ 512)

include limit

theorem scientific_reads_back (enough : 16 ≤ precision) : ReadsBack .scientific precision := by
  refine ⟨bare_reads _ _ limit, ?_⟩
  intro negative code
  obtain ⟨e, text, _, _, exponent, value⟩ := scientific_exponential precision code
  have body : (bare .scientific precision).body (.finite negative code) = e.text := text
  have small : e.exponent.natAbs ≤ 1074 := exponent ▸ mantissa_exponent precision code code.isLt
  have rounded := Binary64.significant_rounded (precision + 1) code (Nat.succ_pos _)
  have read := Binary64.read_of_rounded (precision + 1) code _ (by omega) rounded
  rw [bare_pattern, body, ← exponential_number_text, number_reads,
    exponential_number_value negative code e small (value ▸ read)]

theorem general_reads_back (enough : 17 ≤ precision) : ReadsBack .general precision := by
  refine ⟨bare_reads _ _ limit, ?_⟩
  intro negative code
  have body : (bare .general precision).body (.finite negative code) =
      generalText precision false code := rfl
  rw [bare_pattern, body]
  by_cases zero : code.val = 0
  · obtain ⟨p, text, _, coefficient, _⟩ := fixed_positional 0 0
    have digit : Decimal.fixed 0 0 = ['0'] := rfl
    have nothing : p.rational = 0 := by
      rw [Positional.rational, coefficient, Nat.cast_zero, zero_div]
    have read : Binary64.ReadAs code p.rational := by
      rw [nothing, zero]
      exact Binary64.read_zero
    rw [zero, general_nothing, ← digit, text, ← positional_number_text, number_reads,
      positional_number_value negative code p read]
  · obtain ⟨last, rfl⟩ : ∃ last, precision = last + 1 := ⟨precision - 1, by omega⟩
    have general := general_once last code zero (last + 1) (by omega)
    have rounded := (mantissa_rounded last code zero).rounded
    have read := Binary64.read_of_rounded (last + 1) code _ enough rounded
    by_cases marked : 'e' ∈ generalText (last + 1) false code
    · obtain ⟨e, text, _, _, exponent, value⟩ := general.marked marked
      have small : e.exponent.natAbs ≤ 1074 := exponent ▸ mantissa_exponent last code code.isLt
      rw [text, ← exponential_number_text, number_reads,
        exponential_number_value negative code e small (value ▸ read)]
    · obtain ⟨p, text, _, value⟩ := general.plain marked
      rw [text, ← positional_number_text, number_reads,
        positional_number_value negative code p (value ▸ read)]

end Directive

-- Seventeen digits are enough in both notations.
theorem enough_digits_read_back :
    (∀ precision, 16 ≤ precision → precision ≤ 512 → Directive.ReadsBack .scientific precision) ∧
      ∀ precision, 17 ≤ precision → precision ≤ 512 → Directive.ReadsBack .general precision :=
  ⟨fun precision enough limit => Directive.scientific_reads_back precision limit enough,
    fun precision enough limit => Directive.general_reads_back precision limit enough⟩

-- The number nearest to a third, and what it is printed as in either notation.
theorem third_reads_back :
    let x := Binary64.finite true 0x3FD5555555555555
    let scientific := "-3.3333333333333331e-01".toList
    let general := "-0.33333333333333331".toList
    Pattern.render ⟨[], Directive.bare .scientific 16, []⟩ x = scientific ∧
      Formula.read .strict scientific = .ok ⟨.constant x, 1⟩ ∧
      Pattern.render ⟨[], Directive.bare .general 17, []⟩ x = general ∧
      Formula.read .strict general = .ok ⟨.constant x, 1⟩ := by
  intro x scientific general
  obtain ⟨enoughScientific, enoughGeneral⟩ := enough_digits_read_back
  obtain ⟨_, scientificReads⟩ := enoughScientific 16 (by decide) (by decide)
  obtain ⟨_, generalReads⟩ := enoughGeneral 17 (by decide) (by decide)
  have scientificText :
      Pattern.render ⟨[], Directive.bare .scientific 16, []⟩ x = scientific := by decide +kernel
  have generalText : Pattern.render ⟨[], Directive.bare .general 17, []⟩ x = general := by
    decide +kernel
  exact ⟨scientificText, scientificText ▸ scientificReads true 0x3FD5555555555555, generalText,
    generalText ▸ generalReads true 0x3FD5555555555555⟩

end ArithTemplate
