import ArithTemplate.Proofs.Json.Fields

set_option autoImplicit false

open ArithTemplate.Written (Stops)

namespace ArithTemplate

namespace Json

section Member

-- What a member changes: its field is set, which was not set before.
inductive Accepts (given : Given) : Text → Value → Given → Prop where
  | capacity (v : Value) (n : ℕ) (new : given.capacity = none) (is : IsCapacity v n) :
      Accepts given Field.capacity.name.toList v { given with capacity := some n }
  | mode (v : Value) (m : Strictness) (new : given.mode = none) (is : IsMode v m) :
      Accepts given Field.mode.name.toList v { given with mode := some m }

theorem member_ok_iff (given next : Given) (name s rest : Text) :
    settingsMember given name s = .ok (next, rest) ↔ ∃ afterColon, colon s = .ok afterColon ∧
      ((name = Field.capacity.name.toList ∧ given.capacity = none ∧
        ∃ n, capacity afterColon = .ok (n, rest) ∧ next = { given with capacity := some n }) ∨
      (name = Field.mode.name.toList ∧ given.mode = none ∧
        ∃ m, mode afterColon = .ok (m, rest) ∧ next = { given with mode := some m })) := by
  constructor
  · intro read
    rw [settingsMember] at read
    split at read
    · cases read
    · rename_i known
      split at read
      · cases read
      · rename_i new
        obtain ⟨afterColon, colon, read⟩ := bind_gives _ _ _ read
        obtain ⟨⟨n, behind⟩, value, read⟩ := bind_gives _ _ _ read
        cases read
        exact ⟨afterColon, colon, .inl ⟨(field_iff name .capacity).1 known, by simpa using new, n, value, rfl⟩⟩
    · rename_i known
      split at read
      · cases read
      · rename_i new
        obtain ⟨afterColon, colon, read⟩ := bind_gives _ _ _ read
        obtain ⟨⟨m, behind⟩, value, read⟩ := bind_gives _ _ _ read
        cases read
        exact ⟨afterColon, colon, .inr ⟨(field_iff name .mode).1 known, by simpa using new, m, value, rfl⟩⟩
  · rintro ⟨afterColon, colon, ⟨rfl, new, n, value, rfl⟩ | ⟨rfl, new, m, value, rfl⟩⟩
    all_goals
      rw [settingsMember, (field_iff _ _).2 rfl]
      dsimp only
      rw [new, colon]
      simp only [Option.isSome_none, Bool.false_eq_true, if_false, bind, Except.bind, value]
      rfl

theorem member_iff (given next : Given) (name before after text s rest : Text) (v : Value)
    (beforeBlank : Blank before) (afterBlank : Blank after) (shown : Shows text v) (stops : Stops s) :
    settingsMember given name (before ++ ':' :: (after ++ (text ++ s))) = .ok (next, rest) ↔
      Accepts given name v next ∧ rest = s := by
  have colon_read := (colon_ok_iff (before ++ ':' :: (after ++ (text ++ s))) _).2 ⟨before, beforeBlank, rfl⟩
  rw [member_ok_iff, colon_read]
  constructor
  · rintro ⟨afterColon, same, ⟨rfl, new, n, value, rfl⟩ | ⟨rfl, new, m, value, rfl⟩⟩
    · cases same
      obtain ⟨is, same⟩ := (capacity_iff after text s rest v n afterBlank shown stops).1 value
      exact ⟨.capacity v n new is, same⟩
    · cases same
      obtain ⟨is, same⟩ := (mode_iff after text s rest v m afterBlank shown).1 value
      exact ⟨.mode v m new is, same⟩
  · rintro ⟨accepts, rfl⟩
    refine ⟨_, rfl, ?_⟩
    cases accepts with
    | capacity v n new is =>
        exact .inl ⟨rfl, new, n, (capacity_iff _ _ _ _ _ n afterBlank shown stops).2 ⟨is, rfl⟩, rfl⟩
    | mode v m new is =>
        exact .inr ⟨rfl, new, m, (mode_iff _ _ _ _ _ m afterBlank shown).2 ⟨is, rfl⟩, rfl⟩

theorem member_shown (given next : Given) (name s rest : Text)
    (read : settingsMember given name s = .ok (next, rest)) :
    ∃ before after text v, s = before ++ ':' :: (after ++ (text ++ rest)) ∧ Blank before ∧ Blank after ∧
      Shows text v := by
  obtain ⟨afterColon, colon, known⟩ := (member_ok_iff given next name s rest).1 read
  obtain ⟨before, beforeBlank, rfl⟩ := (colon_ok_iff _ _).1 colon
  have value : ∃ after text v, afterColon = after ++ (text ++ rest) ∧ Blank after ∧ Shows text v := by
    rcases known with ⟨_, _, n, value, _⟩ | ⟨_, _, m, value, _⟩
    · exact capacity_shown _ _ n value
    · exact mode_shown _ _ m value
  obtain ⟨after, text, v, rfl, afterBlank, shown⟩ := value
  exact ⟨before, after, text, v, rfl, beforeBlank, afterBlank, shown⟩

-- What a run over the members makes of what was given.
inductive Takes : Given → List (Text × Value) → Given → Prop where
  | done (given : Given) : Takes given [] given
  | take (given next final : Given) (name : Text) (v : Value) (pairs : List (Text × Value))
      (accepts : Accepts given name v next) (later : Takes next pairs final) :
      Takes given ((name, v) :: pairs) final

theorem members_iff (first : Bool) (s after : Text) (pairs : List (Text × Value))
    (listed : Members Shows first s pairs after) (given final : Given) (rest : Text) (rounds : ℕ)
    (enough : s.length ≤ rounds) :
    members settingsMember rounds first given s = .ok (final, rest) ↔ Takes given pairs final ∧ rest = after := by
  induction listed generalizing given rounds with
  | close first blank after blanks =>
      obtain ⟨fewer, rfl⟩ : ∃ fewer, rounds = fewer + 1 := by
        simp only [List.length_append, List.length_cons] at enough
        exact ⟨rounds - 1, by omega⟩
      rw [members_close settingsMember fewer first given blank after blanks]
      constructor
      · intro same
        cases same
        exact ⟨.done _, rfl⟩
      · rintro ⟨takes, rfl⟩
        cases takes
        rfl
  | member first front spelling name before behind value s after v pairs opening spelled beforeBlank
      behindBlank shown later hypothesis =>
      simp only [List.length_append, List.length_cons] at enough
      obtain ⟨fewer, rfl⟩ : ∃ fewer, rounds = fewer + 1 := ⟨rounds - 1, by omega⟩
      have named := (string_ok_iff _ name (before ++ ':' :: (behind ++ (value ++ s)))).2
        ⟨spelling, rfl, spelled⟩
      have member (next : Given) (rest : Text) := member_iff given next name before behind value s rest v
        beforeBlank behindBlank shown (members_stop s after pairs later)
      rw [members_open settingsMember fewer first given front _ opening,
        read_named settingsMember fewer given _ _ _ named]
      constructor
      · intro read
        obtain ⟨⟨next, left⟩, accepted, inner⟩ := bind_gives _ _ _ read
        obtain ⟨accepts, rfl⟩ := (member next left).1 accepted
        obtain ⟨takes, same⟩ := (hypothesis next fewer (by omega)).1 inner
        exact ⟨.take given next final name v pairs accepts takes, same⟩
      · rintro ⟨takes, same⟩
        cases takes with
        | take _ next _ _ _ _ accepts takes =>
            rw [(member next s).2 ⟨accepts, rfl⟩]
            exact (hypothesis next fewer (by omega)).2 ⟨takes, same⟩

theorem listed_shown (first : Bool) (given final : Given) (s rest : Text)
    (listed : Listed settingsMember first given s final rest) :
    ∃ pairs, Members Shows first s pairs rest := by
  induction listed with
  | close first given blank rest blanks => exact ⟨[], .close first blank rest blanks⟩
  | member first given next final front spelling name body after rest opening spelled read _ hypothesis =>
      obtain ⟨pairs, members⟩ := hypothesis
      obtain ⟨before, behind, text, v, rfl, beforeBlank, behindBlank, shown⟩ :=
        member_shown given next name body after read
      exact ⟨(name, v) :: pairs, .member first front spelling name before behind text after rest v pairs
        opening spelled beforeBlank behindBlank shown members⟩

end Member

section Fields

-- How a field stands after a run over members: as before where its name is missing, else what the only
-- value under its name is read as.
def Fits {A : Type} (held : Option A) (pairs : List (Text × Value)) (name : Text) (Is : Value → A → Prop)
    (final : Option A) : Prop :=
  (∃ v x, held = none ∧ (name, v) ∈ pairs ∧ Is v x ∧ final = some x) ∨
    ((∀ p ∈ pairs, p.1 ≠ name) ∧ final = held)

variable {A : Type} (held final : Option A) (pairs : List (Text × Value)) (name : Text)
  (Is : Value → A → Prop)

theorem fits_nothing : Fits held [] name Is final ↔ final = held := by
  simp [Fits]

theorem fits_other (other : Text) (v : Value) (different : other ≠ name) :
    Fits held ((other, v) :: pairs) name Is final ↔ Fits held pairs name Is final := by
  have known (w : Value) : (name, w) ∈ (other, v) :: pairs ↔ (name, w) ∈ pairs := by
    simp [Ne.symm different]
  simp only [Fits, known, List.forall_mem_cons, ne_eq, different, not_false_eq_true, true_and]

theorem fits_named (v : Value) :
    (name ∉ pairs.map Prod.fst ∧ Fits held ((name, v) :: pairs) name Is final) ↔
      held = none ∧ ∃ x, Is v x ∧ Fits (some x) pairs name Is final := by
  have absent_iff : name ∉ pairs.map Prod.fst ↔ ∀ p ∈ pairs, p.1 ≠ name := by
    rw [List.mem_map]
    push Not
    rfl
  rw [absent_iff]
  constructor
  · rintro ⟨absent, ⟨w, x, empty, member, is, same⟩ | ⟨missing, _⟩⟩
    · rcases List.mem_cons.1 member with head | later
      · cases head
        exact ⟨empty, x, is, .inr ⟨absent, same⟩⟩
      · exact absurd rfl (absent _ later)
    · exact absurd rfl (missing _ List.mem_cons_self)
  · rintro ⟨empty, x, is, ⟨_, _, absurd, _⟩ | ⟨absent, same⟩⟩
    · cases absurd
    · exact ⟨absent, .inl ⟨v, x, empty, List.mem_cons_self, is, same⟩⟩

end Fields

def Known (name : Text) : Prop := ∃ field : Field, name = field.name.toList

theorem known_iff (name : Text) :
    Known name ↔ name = Field.capacity.name.toList ∨ name = Field.mode.name.toList := by
  constructor
  · rintro ⟨field, rfl⟩
    cases field with
    | capacity => exact .inl rfl
    | mode => exact .inr rfl
  · rintro (rfl | rfl)
    · exact ⟨.capacity, rfl⟩
    · exact ⟨.mode, rfl⟩

theorem field_names_differ : Field.mode.name.toList ≠ Field.capacity.name.toList := by decide

theorem takes_cons_iff (given final : Given) (name : Text) (v : Value) (pairs : List (Text × Value)) :
    Takes given ((name, v) :: pairs) final ↔
      (name = Field.capacity.name.toList ∧ given.capacity = none ∧
        ∃ n, IsCapacity v n ∧ Takes { given with capacity := some n } pairs final) ∨
      (name = Field.mode.name.toList ∧ given.mode = none ∧
        ∃ m, IsMode v m ∧ Takes { given with mode := some m } pairs final) := by
  constructor
  · intro takes
    cases takes with
    | take _ next _ _ _ _ accepts later =>
        cases accepts with
        | capacity _ n new is => exact .inl ⟨rfl, new, n, is, later⟩
        | mode _ m new is => exact .inr ⟨rfl, new, m, is, later⟩
  · rintro (⟨rfl, new, n, is, later⟩ | ⟨rfl, new, m, is, later⟩)
    · exact .take _ _ _ _ _ _ (.capacity v n new is) later
    · exact .take _ _ _ _ _ _ (.mode v m new is) later

-- The run over the members, field by field. That no name comes twice shows in the fields being empty.
theorem takes_iff (given final : Given) (pairs : List (Text × Value)) :
    Takes given pairs final ↔ (∀ p ∈ pairs, Known p.1) ∧ (pairs.map Prod.fst).Nodup ∧
      Fits given.capacity pairs Field.capacity.name.toList IsCapacity final.capacity ∧
      Fits given.mode pairs Field.mode.name.toList IsMode final.mode := by
  induction pairs generalizing given with
  | nil =>
      simp only [fits_nothing]
      constructor
      · intro takes
        cases takes
        exact ⟨nofun, .nil, rfl, rfl⟩
      · rintro ⟨_, _, capacity, mode⟩
        obtain rfl : given = final := by
          cases given
          cases final
          cases capacity
          cases mode
          rfl
        exact .done given
  | cons first pairs hypothesis =>
      obtain ⟨name, v⟩ := first
      rw [takes_cons_iff, List.forall_mem_cons, List.map_cons, List.nodup_cons, known_iff]
      simp only [hypothesis]
      by_cases capacity : name = Field.capacity.name.toList
      · subst capacity
        have different := Ne.symm field_names_differ
        have other := fits_other given.mode final.mode pairs _ IsMode _ v different
        have named := fits_named given.capacity final.capacity pairs Field.capacity.name.toList IsCapacity v
        rw [other]
        simp only [different, true_and, false_and, or_false]
        constructor
        · rintro ⟨new, n, is, known, once, fits, same⟩
          obtain ⟨absent, whole⟩ := named.2 ⟨new, n, is, fits⟩
          exact ⟨known, ⟨absent, once⟩, whole, same⟩
        · rintro ⟨known, ⟨absent, once⟩, whole, same⟩
          obtain ⟨new, n, is, fits⟩ := named.1 ⟨absent, whole⟩
          exact ⟨new, n, is, known, once, fits, same⟩
      · by_cases mode : name = Field.mode.name.toList
        · subst mode
          have other := fits_other given.capacity final.capacity pairs _ IsCapacity _ v field_names_differ
          have named := fits_named given.mode final.mode pairs Field.mode.name.toList IsMode v
          rw [other]
          simp only [field_names_differ, true_and, false_and, false_or, or_true]
          constructor
          · rintro ⟨new, m, is, known, once, same, fits⟩
            obtain ⟨absent, whole⟩ := named.2 ⟨new, m, is, fits⟩
            exact ⟨known, ⟨absent, once⟩, same, whole⟩
          · rintro ⟨known, ⟨absent, once⟩, same, whole⟩
            obtain ⟨new, m, is, fits⟩ := named.1 ⟨absent, whole⟩
            exact ⟨new, m, is, known, once, same, fits⟩
        · simp only [capacity, mode, false_and, or_self]

end Json

end ArithTemplate
