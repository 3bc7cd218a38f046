import ArithTemplate.Proofs.Written.Format
import ArithTemplate.Proofs.Written.Positional

set_option autoImplicit false

open ArithTemplate.Written

namespace ArithTemplate

namespace Directive

-- A directive that says how many digits there are and nothing else.
def bare (conversion : Conversion) (precision : ℕ) : Directive where
  leftAlign := false
  plus := false
  space := false
  zeroPad := false
  alternate := false
  width := 0
  precision := precision
  conversion := conversion
  upper := false

def bareText (conversion : Conversion) (precision : ℕ) : Text :=
  '%' :: '.' :: (Numeral.ofNat precision ++ [Letter.char ⟨conversion, false⟩])

theorem bare_reads (conversion : Conversion) (precision : ℕ) (limit : precision ≤ 512) :
    Pattern.read (bareText conversion precision) = .ok ⟨[], bare conversion precision, []⟩ := by
  have value := Numeral.value_of_nat precision
  let digits : Digits :=
    ⟨Numeral.ofNat precision, fun _ member => Numeral.isDigit_of_mem_ofNat member⟩
  let d : Specification :=
    ⟨[], List.forall_mem_nil _, none, some ⟨digits, value.symm ▸ limit⟩, none, ⟨conversion, false⟩⟩
  have directive : d.directive = bare conversion precision := congrArg (bare conversion) value
  have reads := specification_reads d
  rwa [directive] at reads

-- Sign and body and nothing around them.
theorem bare_render (conversion : Conversion) (precision : ℕ) (negative : Bool)
    (code : Fin 0x7FF0000000000000) :
    (bare conversion precision).render (.finite negative code) =
      (if negative then ['-'] else []) ++
        (bare conversion precision).body (.finite negative code) := by
  cases negative <;> simp [render, sign, bare, Binary64.isNegative]

variable (precision code : ℕ)

theorem mantissa_place :
    (Binary64.significant (precision + 1) code).exponent + (precision + 1 : ℕ) - 1 =
      (mantissa precision code).2 := by
  simp only [mantissa]
  omega

theorem mantissa_rounded (nonzero : code ≠ 0) :
    RoundedDigits (precision + 1) (Binary64.magnitude code)
      (Binary64.significant (precision + 1) code).coefficient (mantissa precision code).2 := by
  rw [← mantissa_place]
  exact (Binary64.significant_nearest (precision + 1) code nonzero (Nat.succ_pos _)).2

theorem mantissa_exponent (finite : code < Binary64.codeLimit) :
    (mantissa precision code).2.natAbs ≤ 1074 := by
  rw [← mantissa_place]
  by_cases zero : code = 0
  · rw [Binary64.significant, if_pos zero]
    dsimp only
    omega
  · exact Binary64.significant_exponent (precision + 1) code zero finite

-- The digits in front of an exponent: one before the point, which is zero for zero only.
theorem mantissa_positional : ∃ p : Positional, (mantissa precision code).1 = p.text ∧
    p.whole.text.length = 1 ∧ p.fraction.text.length = precision ∧
      (p.whole.text = ['0'] → code = 0) ∧
      p.rational * 10 ^ (mantissa precision code).2 =
        (Binary64.significant (precision + 1) code).rational := by
  have below := Binary64.significant_below (precision + 1) code (Nat.succ_pos _)
  obtain ⟨p, text, length, coefficient, single⟩ :=
    fixed_positional precision (Binary64.significant (precision + 1) code).coefficient
  refine ⟨p, text, single below, length, ?_, ?_⟩
  · intro zero
    by_contra nonzero
    have least := (mantissa_rounded precision code nonzero).least
    have small := p.zero_whole zero
    rw [coefficient, length] at small
    exact absurd least (Nat.not_le.2 small)
  · have powers := ten_powers (-(precision : ℤ))
      ((Binary64.significant (precision + 1) code).exponent + precision)
      (Binary64.significant (precision + 1) code).exponent (by omega)
    rw [Positional.rational, coefficient, length, Decimal.rational, mantissa, div_eq_mul_inv,
      ← zpow_natCast, ← zpow_neg, mul_assoc, powers]

theorem scientific_exponential : ∃ e : Exponential, scientificText precision false code = e.text ∧
    e.mantissa.fraction.text.length = precision ∧ (e.mantissa.whole.text = ['0'] → code = 0) ∧
      e.exponent = (mantissa precision code).2 ∧
        e.rational = (Binary64.significant (precision + 1) code).rational := by
  obtain ⟨p, text, single, length, zero, value⟩ := mantissa_positional precision code
  obtain ⟨e, spelled, rfl, exponent⟩ :=
    exponent_exponential p single (mantissa precision code).2
  refine ⟨e, ?_, length, zero, exponent, ?_⟩
  · rw [← spelled, ← text]
    simp [scientificText]
  · rw [Exponential.rational, exponent, value]

end Directive

-- What `%f` and `%e` print.
theorem fixed_and_scientific_rounded (precision : ℕ) (limit : precision ≤ 512) :
    Pattern.read (Directive.bareText .fixed precision) =
        .ok ⟨[], Directive.bare .fixed precision, []⟩ ∧
      Pattern.read (Directive.bareText .scientific precision) =
        .ok ⟨[], Directive.bare .scientific precision, []⟩ ∧
      ∀ (negative : Bool) (code : Fin 0x7FF0000000000000),
        let x := Binary64.finite negative code
        let sign := if negative then ['-'] else []
        let fixed := Directive.bare .fixed precision
        let scientific := Directive.bare .scientific precision
        (∃ p : Positional, fixed.render x = sign ++ fixed.body x ∧ fixed.body x = p.text ∧
          p.fraction.text.length = precision ∧
          NearestWhole (Binary64.magnitude code * 10 ^ precision) p.coefficient) ∧
        ∃ e : Exponential, scientific.render x = sign ++ scientific.body x ∧
          scientific.body x = e.text ∧ e.mantissa.fraction.text.length = precision ∧
          (e.mantissa.whole.text = ['0'] → code.val = 0) ∧
          RoundedTo (precision + 1) (Binary64.magnitude code) e.rational := by
  refine ⟨Directive.bare_reads _ _ limit, Directive.bare_reads _ _ limit, ?_⟩
  intro negative code x sign fixed scientific
  constructor
  · obtain ⟨p, text, length, coefficient, _⟩ :=
      fixed_positional precision (Binary64.scaledBy precision code)
    refine ⟨p, Directive.bare_render _ _ negative code, ?_, length, ?_⟩
    · rw [← text]
      exact List.append_nil _
    · rw [coefficient]
      exact Binary64.scaled_nearest precision code
  · obtain ⟨e, text, length, zero, _, value⟩ := Directive.scientific_exponential precision code
    refine ⟨e, Directive.bare_render _ _ negative code, text, length, zero, ?_⟩
    rw [value]
    exact Binary64.significant_rounded (precision + 1) code (Nat.succ_pos _)

-- Nine and a half is a tie, and carries into a second digit and the next power of ten.
theorem nine_and_half_rounded :
    let code : Fin 0x7FF0000000000000 := 0x4023000000000000
    ∃ (p : Positional) (e : Exponential), p.text = ['1', '0'] ∧ e.text = ['1', 'e', '+', '0', '1'] ∧
      NearestWhole (Binary64.magnitude code * 10 ^ 0) p.coefficient ∧
      RoundedTo 1 (Binary64.magnitude code) e.rational := by
  intro code
  obtain ⟨_, _, rounded⟩ := fixed_and_scientific_rounded 0 (by decide)
  obtain ⟨⟨p, _, plain, _, nearest⟩, e, _, marked, _, _, value⟩ := rounded false code
  refine ⟨p, e, ?_, ?_, nearest, value⟩
  · rw [← plain]
    decide +kernel
  · rw [← marked]
    decide +kernel

namespace Directive

-- The second rounding of the general conversion finds the digits of the first.
theorem second_rounding (count code : ℕ) (nonzero : code ≠ 0) (nonempty : 0 < count)
    (places : ℕ) (place : (Binary64.significant count code).exponent = -places) :
    Binary64.scaledBy places code = (Binary64.significant count code).coefficient := by
  have first := (Binary64.significant_nearest count code nonzero nonempty).1
  rw [place, neg_neg, zpow_natCast] at first
  exact (Binary64.scaled_nearest places code).unique first

end Directive

-- What `%g` prints for digits and the exponent of the first of them.
structure GeneralText (count digits : ℕ) (exponent : ℤ) (text : Text) : Prop where
  plain_iff : 'e' ∉ text ↔ -4 ≤ exponent ∧ exponent < count
  plain : 'e' ∉ text → ∃ p : Positional, text = p.text ∧ p.Trimmed ∧
    p.rational = digits * 10 ^ (exponent + 1 - count)
  marked : 'e' ∈ text → ∃ e : Exponential, text = e.text ∧ e.mantissa.whole.text ≠ ['0'] ∧
    e.mantissa.Trimmed ∧ e.exponent = exponent ∧
      e.rational = digits * 10 ^ (exponent + 1 - count)

namespace Directive

section General

variable (last code : ℕ) (nonzero : code ≠ 0)

include nonzero

theorem general_positional (places : ℕ)
    (place : (Binary64.significant (last + 1) code).exponent = -places) : ∃ p : Positional,
    stripFraction (Decimal.fixed places (Binary64.scaledBy places code)) = p.text ∧ p.Trimmed ∧
      p.rational = (Binary64.significant (last + 1) code).rational := by
  have again := second_rounding (last + 1) code nonzero (Nat.succ_pos _) places place
  obtain ⟨p, text, length, coefficient, _⟩ := fixed_positional places (Binary64.scaledBy places code)
  refine ⟨p.trim, ?_, p.trim_trimmed, ?_⟩
  · rw [text, p.strip_text]
  · rw [p.trim_rational, Positional.rational, coefficient, length, again, Decimal.rational, place,
      zpow_neg, zpow_natCast, div_eq_mul_inv]

theorem general_exponential : ∃ e : Exponential,
    stripFraction (mantissa last code).1 ++ exponentText (mantissa last code).2 = e.text ∧
      e.mantissa.whole.text ≠ ['0'] ∧ e.mantissa.Trimmed ∧ e.exponent = (mantissa last code).2 ∧
        e.rational = (Binary64.significant (last + 1) code).rational := by
  obtain ⟨p, text, single, length, zero, value⟩ := mantissa_positional last code
  obtain ⟨e, spelled, same, exponent⟩ :=
    exponent_exponential p.trim single (mantissa last code).2
  refine ⟨e, ?_, ?_, ?_, exponent, ?_⟩
  · rw [text, p.strip_text, spelled]
  · rw [same]
    exact fun absurd => nonzero (zero absurd)
  · rw [same]
    exact p.trim_trimmed
  · rw [Exponential.rational, same, exponent, p.trim_rational, value]

theorem general_once (precision : ℕ) (count : max precision 1 = last + 1) :
    GeneralText (last + 1) (Binary64.significant (last + 1) code).coefficient (mantissa last code).2
      (generalText precision false code) := by
  have exponent : (mantissa last code).2 = (Binary64.significant (last + 1) code).exponent + last :=
    rfl
  have value : (Binary64.significant (last + 1) code).rational =
      (Binary64.significant (last + 1) code).coefficient *
        10 ^ ((mantissa last code).2 + 1 - (last + 1 : ℕ)) := by
    have place : (mantissa last code).2 + 1 - (last + 1 : ℕ) =
        (Binary64.significant (last + 1) code).exponent := by omega
    rw [place, Decimal.rational]
  let places := (((last + 1 : ℕ) : ℤ) - 1 - (mantissa last code).2).toNat
  have choice : generalText precision false code =
      if -4 ≤ (mantissa last code).2 ∧ (mantissa last code).2 < (last + 1 : ℕ) then
        stripFraction (Decimal.fixed places (Binary64.scaledBy places code))
      else stripFraction (mantissa last code).1 ++ exponentText (mantissa last code).2 := by
    simp only [generalText, count]
    rfl
  rw [choice]
  by_cases plain : -4 ≤ (mantissa last code).2 ∧ (mantissa last code).2 < (last + 1 : ℕ)
  · obtain ⟨p, text, trimmed, same⟩ := general_positional last code nonzero places (by omega)
    rw [if_pos plain, text]
    exact ⟨iff_of_true (positional_plain p) plain, fun _ => ⟨p, rfl, trimmed, same.trans value⟩,
      fun mark => absurd mark (positional_plain p)⟩
  · obtain ⟨e, text, nonzero, trimmed, exponent, same⟩ := general_exponential last code nonzero
    rw [if_neg plain, text]
    exact ⟨iff_of_false (not_not_intro (exponential_marked e)) plain,
      fun absent => absurd (exponential_marked e) absent,
      fun _ => ⟨e, rfl, nonzero, trimmed, exponent, same.trans value⟩⟩

end General

theorem scaled_nothing (places : ℕ) : Binary64.scaledBy places 0 = 0 := by
  rw [Binary64.scaledBy, Binary64.units_zero, Nat.zero_mul]
  simp [roundHalfEven]

theorem fixed_nothing (places : ℕ) : stripFraction (Decimal.fixed places 0) = ['0'] := by
  let p : Positional :=
    ⟨⟨⟨['0'], List.forall_mem_singleton.2 rfl⟩, List.cons_ne_nil _ _⟩,
      ⟨List.replicate places '0', fun c member => List.eq_of_mem_replicate member ▸ rfl⟩, fun _ => rfl⟩
  have digits : Numeral.padded (places + 1) 0 = '0' :: List.replicate places '0' :=
    List.replicate_succ'.symm
  have text : Decimal.fixed places 0 = p.text := by
    rw [Decimal.fixed, digits]
    by_cases whole : places = 0
    · rw [if_pos whole]
      simp [p, Positional.text, pointed, whole]
    · rw [if_neg whole]
      simp [p, Positional.text, pointed, whole]
  have empty : p.trim.fraction.text = [] := by simp [p, Positional.trim, trimmed]
  rw [text, p.strip_text, Positional.text, empty]
  rfl

theorem general_nothing (precision : ℕ) : generalText precision false 0 = ['0'] := by
  let last := max precision 1 - 1
  have exponent : (mantissa last 0).2 = 0 := by
    simp only [mantissa, Binary64.significant, if_true]
    omega
  have choice : generalText precision false 0 =
      if -4 ≤ (mantissa last 0).2 ∧ (mantissa last 0).2 < (max precision 1 : ℕ) then _ else _ := rfl
  rw [choice, if_pos (by rw [exponent]; omega), scaled_nothing]
  exact fixed_nothing _

end Directive

-- What `%g` prints. Where it takes the positional notation it rounds a second time, which finds the
-- same number.
theorem general_rounded_once (precision : ℕ) (limit : precision ≤ 512) :
    Pattern.read (Directive.bareText .general precision) =
        .ok ⟨[], Directive.bare .general precision, []⟩ ∧
      ∀ (negative : Bool) (code : Fin 0x7FF0000000000000),
        let x := Binary64.finite negative code
        let general := Directive.bare .general precision
        let count := max precision 1
        general.render x = (if negative then ['-'] else []) ++ general.body x ∧
        (code.val = 0 → general.body x = ['0']) ∧
        (code.val ≠ 0 → ∃ digits exponent,
          RoundedDigits count (Binary64.magnitude code) digits exponent ∧
          (∀ digits' exponent', RoundedDigits count (Binary64.magnitude code) digits' exponent' →
            digits = digits' ∧ exponent = exponent') ∧
          GeneralText count digits exponent (general.body x)) := by
  refine ⟨Directive.bare_reads _ _ limit, ?_⟩
  intro negative code x general count
  have body : general.body x = Directive.generalText precision false code.val := rfl
  refine ⟨Directive.bare_render _ _ negative code, ?_, ?_⟩
  · intro zero
    rw [body, zero]
    exact Directive.general_nothing precision
  · intro nonzero
    obtain ⟨last, shape⟩ : ∃ last, count = last + 1 := ⟨max precision 1 - 1, by omega⟩
    have rounded := Directive.mantissa_rounded last code nonzero
    rw [body, shape]
    exact ⟨_, _, rounded, fun _ _ => rounded.unique (Nat.succ_pos _),
      Directive.general_once last code nonzero precision shape⟩

-- Just below a power of ten, six digits carry into the power, which is written without an exponent.
theorem below_ten_rounded_once :
    let code : Fin 0x7FF0000000000000 := 0x4023FFFFEF39085F
    (Directive.bare .general 6).body (.finite false code) = ['1', '0'] ∧
      ∃ digits exponent, RoundedDigits 6 (Binary64.magnitude code) digits exponent ∧
        GeneralText 6 digits exponent ['1', '0'] := by
  intro code
  have text : (Directive.bare .general 6).body (.finite false code) = ['1', '0'] := by decide +kernel
  obtain ⟨_, rounded⟩ := general_rounded_once 6 (by decide)
  obtain ⟨_, _, printed⟩ := rounded false code
  obtain ⟨digits, exponent, once, _, general⟩ := printed (by decide)
  exact ⟨text, digits, exponent, once, text ▸ general⟩

end ArithTemplate
