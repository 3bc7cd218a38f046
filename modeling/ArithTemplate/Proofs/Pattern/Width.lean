import ArithTemplate.Proofs.Written.Format

set_option autoImplicit false

namespace ArithTemplate

namespace Binary64

def abs : Binary64 → Binary64
  | .nan => .nan
  | .infinite _ => .infinite false
  | .finite _ code => .finite false code

theorem abs_positive (x : Binary64) : x.abs.isNegative = false := by
  cases x <;> rfl

-- A pattern of bits is negative by its first bit, unless it is not a number.
theorem negative_bits_iff (bits : Nat) :
    (ofBits bits).isNegative = true ↔ ofBits bits ≠ .nan ∧ signBit ≤ bits := by
  simp only [ofBits]
  split
  · simp [isNegative]
  · split
    · simp [isNegative]
    · simp [isNegative]

end Binary64

namespace Directive

-- What says how the digits are written, without a width and without a flag for sign or place.
def alone (d : Directive) : Directive :=
  { d with leftAlign := false, plus := false, space := false, zeroPad := false, width := 0 }

theorem alone_render (d : Directive) (x : Binary64) : d.alone.render x.abs = d.body x := by
  have body : d.alone.body x.abs = d.body x := by cases x <;> rfl
  have sign : d.alone.sign x.abs = [] := by simp [Directive.sign, Binary64.abs_positive, alone]
  have missing : 0 - (d.body x).length = 0 := Nat.zero_sub _
  simp only [render, sign, body]
  simp [alone, missing]

end Directive

-- How many characters fill a field up, and where they stand.
structure Padding where
  left : Nat
  zeros : Nat
  right : Nat

namespace Padding

variable (p : Padding) (sign body : Text)

def around : Text :=
  List.replicate p.left ' ' ++ (sign ++ (List.replicate p.zeros '0' ++
    (body ++ List.replicate p.right ' ')))

theorem length_around :
    (p.around sign body).length = p.left + p.zeros + p.right + (sign ++ body).length := by
  simp only [around, List.length_append, List.length_replicate]
  omega

-- The place is the right one behind the number, the middle one between sign and digits, and the left
-- one otherwise.
structure Placed (behind between : Prop) : Prop where
  single : p.left = 0 ∧ p.zeros = 0 ∨ p.left = 0 ∧ p.right = 0 ∨ p.zeros = 0 ∧ p.right = 0
  right : p.right ≠ 0 → behind
  zeros : p.zeros ≠ 0 → between
  left : p.left ≠ 0 → ¬ behind ∧ ¬ between

end Padding

theorem Directive.render_padded (d : Directive) (x : Binary64) : ∃ p : Padding,
    d.render x = p.around (d.sign x) (d.body x) ∧
      p.Placed (d.leftAlign = true)
        (d.zeroPad = true ∧ ¬ d.leftAlign = true ∧ x.isFinite = true) ∧
      (d.render x).length = max d.width (d.sign x ++ d.body x).length := by
  let missing := d.width - (d.sign x ++ d.body x).length
  have padded (p : Padding) (text : d.render x = p.around (d.sign x) (d.body x))
      (count : p.left + p.zeros + p.right = missing) :
      (d.render x).length = max d.width (d.sign x ++ d.body x).length := by
    rw [text, p.length_around, count]
    omega
  have fill : d.width - ((d.sign x).length + (d.body x).length) = missing := by
    simp only [missing, List.length_append]
  by_cases left : d.leftAlign = true
  · have text : d.render x = Padding.around ⟨0, 0, missing⟩ (d.sign x) (d.body x) := by
      simp [render, Padding.around, left, fill]
    refine ⟨_, text, ⟨.inl ⟨rfl, rfl⟩, fun _ => left, absurd rfl, absurd rfl⟩, padded _ text ?_⟩
    exact Nat.zero_add missing
  · by_cases zero : d.zeroPad = true ∧ x.isFinite = true
    · have text : d.render x = Padding.around ⟨0, missing, 0⟩ (d.sign x) (d.body x) := by
        simp [render, Padding.around, left, zero, fill]
      refine ⟨_, text, ⟨.inr (.inl ⟨rfl, rfl⟩), absurd rfl, fun _ => ⟨zero.1, left, zero.2⟩,
        absurd rfl⟩, padded _ text ?_⟩
      exact Nat.zero_add missing
    · have text : d.render x = Padding.around ⟨missing, 0, 0⟩ (d.sign x) (d.body x) := by
        simp [render, Padding.around, left, zero, fill]
      refine ⟨_, text, ⟨.inr (.inr ⟨rfl, rfl⟩), absurd rfl, absurd rfl, fun _ => ⟨left, ?_⟩⟩,
        padded _ text rfl⟩
      exact fun between => zero ⟨between.1, between.2.2⟩

namespace Written.Specification

variable (d : Specification)

-- The directive with its conversion, its precision and the alternate flag, and no width.
def alone : Specification where
  flags := d.flags.filter (· == '#')
  flagged c member := d.flagged c (List.mem_filter.1 member).1
  width := none
  precision := d.precision
  modifier := none
  letter := d.letter

theorem alone_directive : d.alone.directive = d.directive.alone := by
  have flag (c : Char) : decide (c ∈ d.alone.flags) = decide (c ∈ d.flags ∧ c = '#') := by
    simp [alone]
  simp only [directive, flag]
  simp [alone, Directive.alone, widthText, Numeral.value]

end Written.Specification

-- Whatever its flags and its width, a directive writes the number as it does without them, under the
-- sign of the value, and fills the field up in one place.
theorem padding_keeps_number (d : Written.Specification) :
    Pattern.read d.text = .ok ⟨[], d.directive, []⟩ ∧
      Pattern.read d.alone.text = .ok ⟨[], d.alone.directive, []⟩ ∧
      ∀ bits : Nat,
        let x := Binary64.ofBits bits
        let minus := x ≠ .nan ∧ Binary64.signBit ≤ bits
        let body := d.alone.directive.render x.abs
        let sign := if minus then ['-'] else if '+' ∈ d.flags then ['+']
          else if ' ' ∈ d.flags then [' '] else []
        ∃ p : Padding, d.directive.render x = p.around sign body ∧
          p.Placed ('-' ∈ d.flags) ('0' ∈ d.flags ∧ '-' ∉ d.flags ∧ x.isFinite = true) ∧
          (d.directive.render x).length =
            max (Numeral.value (Written.widthText d.width)) (sign ++ body).length := by
  refine ⟨Written.specification_reads d, Written.specification_reads d.alone, ?_⟩
  intro bits x minus body sign
  have negative : x.isNegative = true ↔ minus := Binary64.negative_bits_iff bits
  have digits : d.directive.body x = body := by
    simp only [body, d.alone_directive, Directive.alone_render]
  have signed : d.directive.sign x = sign := by
    simp only [Directive.sign, negative]
    simp [sign, Written.Specification.directive]
  obtain ⟨p, text, placed, length⟩ := d.directive.render_padded x
  rw [digits, signed] at text length
  refine ⟨p, text, ?_, length⟩
  simpa [Written.Specification.directive] using placed

end ArithTemplate
