set_option autoImplicit false

/-!
Texts are lists of characters, measured in the bytes of their UTF-8 form. A text is parted at a byte
where a character ends, and cut in two at the first occurrence of a mark. A clipped text is the
longest prefix within a byte limit.
-/

namespace ArithTemplate

abbrev Text := List Char

namespace Text

def bytes : Text → Nat
  | [] => 0
  | c :: rest => c.utf8Size + bytes rest

-- The first `n` bytes and what follows them, unless a character reaches over the place.
def atByte (n : Nat) : Text → Option (Text × Text)
  | [] => if n = 0 then some ([], []) else none
  | c :: rest =>
      if n = 0 then some ([], c :: rest)
      else if n < c.utf8Size then none
      else (atByte (n - c.utf8Size) rest).map fun (front, behind) => (c :: front, behind)

-- The parts of a text at the first place at which it can be parted, from byte `n` backwards.
def backFrom (s : Text) : Nat → Text × Text
  | 0 => ([], s)
  | n + 1 =>
      match atByte (n + 1) s with
      | some parts => parts
      | none => backFrom s n

-- Longest prefix of at most `limit` bytes; a character that does not fit whole is left out.
def clip (limit : Nat) : Text → Text
  | [] => []
  | c :: rest => if c.utf8Size ≤ limit then c :: clip (limit - c.utf8Size) rest else []

def cut (mark : Char) : Text → Option (Text × Text)
  | [] => none
  | c :: rest =>
      if c = mark then some ([], rest)
      else (cut mark rest).map fun (before, after) => (c :: before, after)

theorem bytes_append (s t : Text) : bytes (s ++ t) = bytes s + bytes t := by
  induction s with
  | nil => simp [bytes]
  | cons c rest ih => simp [bytes, ih, Nat.add_assoc]

theorem bytes_zero_iff (s : Text) : bytes s = 0 ↔ s = [] := by
  cases s with
  | nil => exact ⟨fun _ => rfl, fun _ => rfl⟩
  | cons c rest =>
      have width := Char.utf8Size_pos c
      refine ⟨fun none => ?_, nofun⟩
      rw [bytes] at none
      omega

theorem at_byte_front (front behind : Text) :
    atByte (bytes front) (front ++ behind) = some (front, behind) := by
  induction front with
  | nil => cases behind <;> rfl
  | cons c rest hypothesis =>
      have width := Char.utf8Size_pos c
      rw [List.cons_append, atByte, bytes, if_neg (by omega), if_neg (by omega), Nat.add_sub_cancel_left,
        hypothesis]
      rfl

theorem at_byte_iff (n : Nat) (s front behind : Text) :
    atByte n s = some (front, behind) ↔ s = front ++ behind ∧ bytes front = n := by
  constructor
  · intro parted
    induction s generalizing n front with
    | nil =>
        rw [atByte] at parted
        split at parted <;> cases parted
        exact ⟨rfl, by simp [bytes, *]⟩
    | cons c rest hypothesis =>
        rw [atByte] at parted
        split at parted
        · cases parted
          exact ⟨rfl, by simp [bytes, *]⟩
        · split at parted
          · cases parted
          · obtain ⟨⟨before, after⟩, later, same⟩ := Option.map_eq_some_iff.1 parted
            cases same
            obtain ⟨whole, size⟩ := hypothesis _ _ later
            refine ⟨by rw [whole, List.cons_append], ?_⟩
            rw [bytes]
            omega
  · rintro ⟨rfl, rfl⟩
    exact at_byte_front front behind

theorem clip_of_bytes_le (s : Text) (limit : Nat) (fits : bytes s ≤ limit) : clip limit s = s := by
  induction s generalizing limit with
  | nil => rfl
  | cons c rest ih =>
      simp only [bytes] at fits
      rw [clip, if_pos (by omega), ih _ (by omega)]

theorem bytes_clip_le (s : Text) (limit : Nat) : bytes (clip limit s) ≤ limit := by
  induction s generalizing limit with
  | nil => simp [clip, bytes]
  | cons c rest ih =>
      unfold clip
      split
      · have := ih (limit - c.utf8Size)
        simp only [bytes]
        omega
      · simp [bytes]

theorem clip_isPrefix (s : Text) (limit : Nat) : List.IsPrefix (clip limit s) s := by
  induction s generalizing limit with
  | nil => exact List.prefix_refl _
  | cons c rest ih =>
      unfold clip
      split
      · exact List.cons_prefix_cons.2 ⟨rfl, ih _⟩
      · exact List.nil_prefix

theorem cut_eq_some_iff (mark : Char) (s before after : Text) :
    cut mark s = some (before, after) ↔ s = before ++ mark :: after ∧ mark ∉ before := by
  induction s generalizing before with
  | nil => simp [cut]
  | cons c rest ih =>
      by_cases h : c = mark
      · subst h
        cases before with
        | nil => simp [cut, eq_comm]
        | cons d tail => simp [cut]; grind
      · cases before with
        | nil => simp [cut, h]
        | cons d tail =>
            simp only [cut, if_neg h, Option.map_eq_some_iff, Prod.exists, Prod.mk.injEq,
              List.cons.injEq, List.cons_append, List.mem_cons, not_or]
            constructor
            · rintro ⟨b, a, found, ⟨rfl, rfl⟩, rfl⟩
              obtain ⟨whole, absent⟩ := (ih b).1 found
              exact ⟨⟨rfl, whole⟩, Ne.symm h, absent⟩
            · rintro ⟨⟨rfl, whole⟩, _, absent⟩
              exact ⟨tail, after, (ih tail).2 ⟨whole, absent⟩, ⟨rfl, rfl⟩, rfl⟩

theorem length_lt_of_cut {mark : Char} {s before after : Text}
    (h : cut mark s = some (before, after)) : after.length < s.length := by
  obtain ⟨rfl, _⟩ := (cut_eq_some_iff ..).1 h
  simp
  omega

theorem cut_eq_none_iff (mark : Char) (s : Text) : cut mark s = none ↔ mark ∉ s := by
  induction s with
  | nil => simp [cut]
  | cons c rest ih =>
      by_cases h : c = mark
      · simp [cut, h]
      · simp [cut, h, ih, Ne.symm h]

end Text
end ArithTemplate
