import ArithTemplate.Json.Bindings
import ArithTemplate.Proofs.Encoded
import ArithTemplate.Proofs.Json.Literal
import ArithTemplate.Proofs.Json.Members
import ArithTemplate.Proofs.Json.Number
import ArithTemplate.Proofs.Substitution.Replacing
import ArithTemplate.Proofs.Wording

set_option autoImplicit false

open ArithTemplate.Written (Stops)

namespace ArithTemplate

namespace Bindings

-- The names come in strictly increasing order, so no name comes twice.
def Increasing (bindings : Bindings) : Prop := bindings.Pairwise fun a b => a.1 < b.1

theorem insert_names (name : Text) (value : Binary64) (bindings : Bindings) :
    ∀ b ∈ bindings.insert name value, b = (name, value) ∨ b ∈ bindings := by
  induction bindings with
  | nil => exact fun b member => .inl (List.mem_singleton.1 member)
  | cons first rest hypothesis =>
      obtain ⟨other, x⟩ := first
      intro b member
      rw [insert] at member
      by_cases same : name = other
      · rw [if_pos same] at member
        rcases List.mem_cons.1 member with new | old
        · exact .inl new
        · exact .inr (List.mem_cons_of_mem _ old)
      · rw [if_neg same] at member
        by_cases less : name < other
        · rw [if_pos less] at member
          exact List.mem_cons.1 member
        · rw [if_neg less] at member
          rcases List.mem_cons.1 member with head | later
          · exact .inr (head ▸ List.mem_cons_self)
          · exact (hypothesis b later).imp id (List.mem_cons_of_mem _)

theorem insert_increasing (name : Text) (value : Binary64) (bindings : Bindings)
    (increasing : bindings.Increasing) : (bindings.insert name value).Increasing := by
  induction bindings with
  | nil => exact List.pairwise_singleton _ _
  | cons first rest hypothesis =>
      obtain ⟨other, x⟩ := first
      obtain ⟨above, later⟩ := List.pairwise_cons.1 increasing
      rw [insert]
      by_cases same : name = other
      · rw [if_pos same]
        exact List.pairwise_cons.2 ⟨same ▸ above, later⟩
      · rw [if_neg same]
        by_cases less : name < other
        · rw [if_pos less]
          refine List.pairwise_cons.2 ⟨?_, increasing⟩
          intro b member
          rcases List.mem_cons.1 member with rfl | behind
          · exact less
          · exact List.lt_trans less (above b behind)
        · rw [if_neg less]
          refine List.pairwise_cons.2 ⟨?_, hypothesis later⟩
          intro b member
          rcases insert_names name value rest b member with rfl | behind
          · exact (List.le_iff_lt_or_eq.1 (List.not_lt.1 less)).resolve_right (Ne.symm same)
          · exact above b behind

theorem insert_iff (name other : Text) (value x : Binary64) (bindings : Bindings)
    (increasing : bindings.Increasing) : (other, x) ∈ bindings.insert name value ↔
      (other = name ∧ x = value) ∨ (other ≠ name ∧ (other, x) ∈ bindings) := by
  have different (b : Text × Binary64) (more : name < b.1) : b.1 ≠ name := by
    intro same
    exact absurd (same ▸ more) (List.lt_irrefl name)
  -- In front of larger names, a name that is put there is the only one of its kind.
  have front (rest : Bindings) (above : ∀ b ∈ rest, name < b.1) :
      (other, x) ∈ (name, value) :: rest ↔
        (other = name ∧ x = value) ∨ (other ≠ name ∧ (other, x) ∈ rest) := by
    rw [List.mem_cons, Prod.mk.injEq]
    refine or_congr_right ⟨fun member => ⟨different _ (above _ member), member⟩, And.right⟩
  induction bindings with
  | nil => exact front [] nofun
  | cons first rest hypothesis =>
      obtain ⟨old, y⟩ := first
      obtain ⟨above, later⟩ := List.pairwise_cons.1 increasing
      rw [insert]
      by_cases same : name = old
      · subst same
        rw [if_pos rfl, front rest above]
        refine or_congr_right (and_congr_right fun other => ?_)
        simp [other]
      · rw [if_neg same]
        by_cases less : name < old
        · rw [if_pos less]
          exact front _ (List.forall_mem_cons.2 ⟨less, fun b member => List.lt_trans less (above b member)⟩)
        · have inner : (other, x) ∈ insert name value rest ↔ _ := hypothesis later
          rw [if_neg less, List.mem_cons, inner, List.mem_cons, Prod.mk.injEq]
          constructor
          · rintro (⟨rfl, rfl⟩ | ⟨rfl, rfl⟩ | ⟨distinct, member⟩)
            · exact .inr ⟨Ne.symm same, .inl ⟨rfl, rfl⟩⟩
            · exact .inl ⟨rfl, rfl⟩
            · exact .inr ⟨distinct, .inr member⟩
          · rintro (⟨rfl, rfl⟩ | ⟨distinct, ⟨rfl, rfl⟩ | member⟩)
            · exact .inr (.inl ⟨rfl, rfl⟩)
            · exact .inl ⟨rfl, rfl⟩
            · exact .inr (.inr ⟨distinct, member⟩)

end Bindings

namespace Json

-- The spelling of a number as a member's value.
def Spells (value : Text) (n : Written.Number) : Prop := IsNumber n ∧ value = n.text

section Member

variable (state next : Bindings) (name : Text)

theorem member_of_number (n : Written.Number) (x : Binary64) (before after rest : Text)
    (beforeBlank : Blank before) (afterBlank : Blank after) (isNumber : IsNumber n)
    (reads : Reads n x) (stops : Stops rest) :
    bindingsMember state name (before ++ ':' :: (after ++ (n.text ++ rest))) =
      .ok (state.insert name x, rest) := by
  obtain ⟨v, value, rfl⟩ := reads
  obtain ⟨c, tail, shape, start⟩ := number_head n isNumber
  have colon_read := (colon_ok_iff (before ++ ':' :: (after ++ (n.text ++ rest))) _).2
    ⟨before, beforeBlank, rfl⟩
  have visible : isBlank c = false := by
    rcases start with rfl | digit
    · rfl
    · exact Bool.eq_false_iff.2 fun blank => Bool.eq_false_iff.1 (blank_no_digit c blank) digit
  have skipped : skipBlank (after ++ (n.text ++ rest)) = n.text ++ rest := by
    refine skip_blank after _ afterBlank ?_
    rw [shape]
    rintro d head
    cases head
    exact visible
  have starts : startsNumber (n.text ++ rest) = true := by
    rw [shape]
    rcases start with rfl | digit
    · rfl
    · simp [startsNumber, digit]
  have number_read := (number_read_iff n isNumber rest rest stops v).2 ⟨value, rfl⟩
  rw [bindingsMember, colon_read]
  change (if startsNumber (skipBlank _) = true then _ else _) = _
  rw [skipped, if_pos starts, number_read]
  rfl

theorem number_of_member (s rest : Text) (read : bindingsMember state name s = .ok (next, rest)) :
    ∃ n x before after, Blank before ∧ Blank after ∧ IsNumber n ∧ Reads n x ∧
      s = before ++ ':' :: (after ++ (n.text ++ rest)) ∧ next = state.insert name x := by
  obtain ⟨afterColon, colon_read, behind⟩ := bind_gives _ _ _ read
  obtain ⟨before, beforeBlank, rfl⟩ := (colon_ok_iff _ _).1 colon_read
  obtain ⟨after, afterBlank, whole⟩ := skip_splits afterColon
  dsimp only at behind
  split at behind
  · obtain ⟨⟨v, rest⟩, number_read, same⟩ := bind_gives _ _ _ behind
    cases same
    obtain ⟨l, found, value⟩ := (number_ok_iff _ _ _).1 number_read
    obtain ⟨n, isNumber, spelled, rfl⟩ := number_of_literal _ _ _ found
    exact ⟨n, v.toBinary64, before, after, beforeBlank, afterBlank, isNumber, ⟨v, value, rfl⟩,
      by rw [← spelled, ← whole], rfl⟩
  · cases behind

end Member

-- What numbers under names make of bindings, one after the other.
inductive Stores : Bindings → List (Text × Written.Number) → Bindings → Prop where
  | done (found : Bindings) : Stores found [] found
  | store (found final : Bindings) (name : Text) (n : Written.Number) (x : Binary64)
      (pairs : List (Text × Written.Number)) (reads : Reads n x)
      (later : Stores (found.insert name x) pairs final) : Stores found ((name, n) :: pairs) final

theorem listed_iff (first : Bool) (found final : Bindings) (s rest : Text) :
    Listed bindingsMember first found s final rest ↔
      ∃ pairs, Members Spells first s pairs rest ∧ Stores found pairs final := by
  constructor
  · intro listed
    induction listed with
    | close first found blank rest blanks => exact ⟨[], .close first blank rest blanks, .done found⟩
    | member first found next final front spelling name body after rest opening spelled read _ hypothesis =>
        obtain ⟨pairs, members, stores⟩ := hypothesis
        obtain ⟨n, x, before, behind, beforeBlank, behindBlank, isNumber, reads, rfl, rfl⟩ :=
          number_of_member found next name body after read
        exact ⟨(name, n) :: pairs, .member first front spelling name before behind n.text after rest n pairs
          opening spelled beforeBlank behindBlank ⟨isNumber, rfl⟩ members,
          .store found final name n x pairs reads stores⟩
  · rintro ⟨pairs, members, stores⟩
    induction members generalizing found with
    | close first blank rest blanks =>
        cases stores
        exact .close first final blank rest blanks
    | member first front spelling name before after value s rest n pairs opening spelled beforeBlank
        afterBlank valued later hypothesis =>
        obtain ⟨isNumber, rfl⟩ := valued
        cases stores with
        | store _ _ _ _ x _ reads stores =>
            exact .member first found _ final front spelling name _ s rest opening spelled
              (member_of_number found name n x before after s beforeBlank afterBlank isNumber reads
                (members_stop s rest pairs later)) (hypothesis _ stores)

theorem member_shorter (found : Bindings) (name s : Text) (next : Bindings) (rest : Text)
    (read : bindingsMember found name s = .ok (next, rest)) : rest.length ≤ s.length := by
  obtain ⟨n, _, before, after, _, _, _, _, rfl, _⟩ := number_of_member found next name s rest read
  simp only [List.length_append, List.length_cons]
  omega

theorem bindings_iff (s : Text) (found : Bindings) :
    bindings s = .ok found ↔ ∃ pairs, Object Spells s pairs ∧ Stores [] pairs found := by
  rw [bindings]
  constructor
  · intro read
    obtain ⟨before, beforeBlank, whole⟩ := skip_splits s
    dsimp only at read
    split at read
    · rename_i inside shape
      obtain ⟨⟨final, rest⟩, members, read⟩ := bind_gives _ _ _ read
      obtain ⟨⟨⟩, done, read⟩ := bind_gives _ _ _ read
      cases read
      have listed := listed_of_members bindingsMember _ _ _ _ _ members
      obtain ⟨pairs, members, stores⟩ := (listed_iff _ _ _ _ _).1 listed
      exact ⟨pairs, ⟨before, inside, rest, shape ▸ whole, beforeBlank, (finish_iff rest).1 done, members⟩,
        stores⟩
    · cases read
  · rintro ⟨pairs, ⟨before, inside, rest, rfl, beforeBlank, restBlank, members⟩, stores⟩
    have listed := (listed_iff true [] found inside rest).2 ⟨pairs, members, stores⟩
    have read := members_of_listed bindingsMember member_shorter _ _ _ _ _ listed inside.length (Nat.le_refl _)
    rw [skip_to before _ _ beforeBlank rfl]
    change (Json.members bindingsMember inside.length true [] inside >>= _) = _
    rw [read]
    change (finish rest >>= _) = _
    rw [(finish_iff rest).2 restBlank]
    rfl

-- The number that stands last under a name.
def Last (pairs : List (Text × Written.Number)) (name : Text) (n : Written.Number) : Prop :=
  ∃ before after, pairs = before ++ (name, n) :: after ∧ ∀ p ∈ after, p.1 ≠ name

theorem last_nil (name : Text) (n : Written.Number) : ¬ Last [] name n := by
  rintro ⟨before, after, absurd, _⟩
  cases before <;> cases absurd

theorem last_cons (other name : Text) (m n : Written.Number) (pairs : List (Text × Written.Number)) :
    Last ((other, m) :: pairs) name n ↔
      Last pairs name n ∨ ((other = name ∧ m = n) ∧ ∀ p ∈ pairs, p.1 ≠ name) := by
  constructor
  · rintro ⟨before, after, split, later⟩
    cases before with
    | nil =>
        cases split
        exact .inr ⟨⟨rfl, rfl⟩, later⟩
    | cons first before =>
        cases split
        exact .inl ⟨before, after, rfl, later⟩
  · rintro (⟨before, after, rfl, later⟩ | ⟨⟨rfl, rfl⟩, later⟩)
    · exact ⟨(other, m) :: before, after, rfl, later⟩
    · exact ⟨[], pairs, rfl, later⟩

theorem last_exists (pairs : List (Text × Written.Number)) (name : Text)
    (named : ∃ p ∈ pairs, p.1 = name) : ∃ n, Last pairs name n := by
  induction pairs with
  | nil =>
      obtain ⟨_, absurd, _⟩ := named
      cases absurd
  | cons first pairs hypothesis =>
      obtain ⟨other, m⟩ := first
      by_cases again : ∃ p ∈ pairs, p.1 = name
      · obtain ⟨n, last⟩ := hypothesis again
        exact ⟨n, (last_cons _ _ _ _ _).2 (.inl last)⟩
      · have later : ∀ p ∈ pairs, p.1 ≠ name := fun p member same => again ⟨p, member, same⟩
        obtain ⟨p, member, same⟩ := named
        rcases List.mem_cons.1 member with rfl | behind
        · exact ⟨m, (last_cons _ _ _ _ _).2 (.inr ⟨⟨same, rfl⟩, later⟩)⟩
        · exact absurd same (later p behind)

theorem last_member (pairs : List (Text × Written.Number)) (name : Text) (n : Written.Number)
    (last : Last pairs name n) : (name, n) ∈ pairs := by
  obtain ⟨before, after, rfl, _⟩ := last
  exact List.mem_append_right before List.mem_cons_self

theorem reads_unique (n : Written.Number) (x y : Binary64) (left : Reads n x) (right : Reads n y) :
    x = y := by
  obtain ⟨v, read, rfl⟩ := left
  obtain ⟨w, read', rfl⟩ := right
  rw [read] at read'
  cases read'
  rfl

section Stored

variable (found final : Bindings) (pairs : List (Text × Written.Number)) (stores : Stores found pairs final)

theorem stores_exists (readable : ∀ p ∈ pairs, ∃ x, Reads p.2 x) : ∃ final, Stores found pairs final := by
  induction pairs generalizing found with
  | nil => exact ⟨found, .done found⟩
  | cons first pairs hypothesis =>
      obtain ⟨name, n⟩ := first
      obtain ⟨⟨x, reads⟩, later⟩ := List.forall_mem_cons.1 readable
      obtain ⟨final, stores⟩ := hypothesis (found.insert name x) later
      exact ⟨final, .store found final name n x pairs reads stores⟩

include stores

theorem stores_increasing (increasing : found.Increasing) : final.Increasing := by
  induction stores with
  | done found => exact increasing
  | store found final name n x pairs reads _ hypothesis =>
      exact hypothesis (found.insert_increasing name x increasing)

theorem stores_iff (increasing : found.Increasing) (name : Text) (x : Binary64) :
    (name, x) ∈ final ↔ (∃ n, Last pairs name n ∧ Reads n x) ∨
      ((∀ p ∈ pairs, p.1 ≠ name) ∧ (name, x) ∈ found) := by
  induction stores with
  | done found => simp [last_nil]
  | store found final other m y pairs reads _ hypothesis =>
      rw [hypothesis (found.insert_increasing other y increasing),
        Bindings.insert_iff other name y x found increasing]
      simp only [last_cons, List.forall_mem_cons]
      constructor
      · rintro (⟨n, last, value⟩ | ⟨absent, ⟨rfl, rfl⟩ | ⟨distinct, member⟩⟩)
        · exact .inl ⟨n, .inl last, value⟩
        · exact .inl ⟨m, .inr ⟨⟨rfl, rfl⟩, absent⟩, reads⟩
        · exact .inr ⟨⟨Ne.symm distinct, absent⟩, member⟩
      · rintro (⟨n, last | ⟨⟨rfl, rfl⟩, absent⟩, value⟩ | ⟨⟨distinct, absent⟩, member⟩)
        · exact .inl ⟨n, last, value⟩
        · exact .inr ⟨absent, .inl ⟨rfl, reads_unique m x y value reads⟩⟩
        · exact .inr ⟨absent, .inr ⟨Ne.symm distinct, member⟩⟩

end Stored

end Json

namespace Bindings

-- The numbers of an object under their names, where the last one of a name counts.
def Holds (found : Bindings) (pairs : List (Text × Written.Number)) : Prop :=
  ∀ name x, (name, x) ∈ found ↔ ∃ n, Json.Last pairs name n ∧ Json.Reads n x

theorem stored_holds (found : Bindings) (pairs : List (Text × Written.Number))
    (stores : Json.Stores [] pairs found) : found.Increasing ∧ found.Holds pairs := by
  refine ⟨Json.stores_increasing _ _ _ stores .nil, fun name x => ?_⟩
  simp [Json.stores_iff _ _ _ stores .nil]

def IsName (s : Text) : Prop := s ≠ [] ∧ ∀ c ∈ s, c.isAlphanum = true

theorem named_iff (s : Text) : isName s = true ↔ IsName s := is_name_iff s

theorem of_json_read (s : Text) (found : Bindings) (read : Json.bindings s = .ok found) :
    ofJson s = match found.find? fun b => !isName b.1 with
      | some b => .error (.variableName b.1)
      | none => .ok found := by
  rw [ofJson, read]
  dsimp only [Except.mapError, bind, Except.bind]
  cases found.find? fun b => !isName b.1 <;> rfl

theorem all_names_iff (found : Bindings) :
    (found.find? fun b => !isName b.1) = none ↔ ∀ b ∈ found, IsName b.1 := by
  simp [List.find?_eq_none, named_iff]

theorem of_json_iff (s : Text) (found : Bindings) : ofJson s = .ok found ↔
    (∃ pairs, Json.Object Json.Spells s pairs ∧ Json.Stores [] pairs found) ∧
      ∀ b ∈ found, IsName b.1 := by
  rw [← Json.bindings_iff]
  constructor
  · intro read
    obtain ⟨plain, judged, _⟩ := bind_gives _ _ _ read
    have plainly := map_error_gives _ _ _ judged
    rw [of_json_read s plain plainly] at read
    split at read
    · cases read
    · rename_i named
      cases read
      exact ⟨plainly, (all_names_iff found).1 named⟩
  · rintro ⟨read, names⟩
    rw [of_json_read s found read, (all_names_iff found).2 names]

-- Names that are refused come in order, too, and the first one is reported.
theorem of_json_refused (s : Text) (found : Bindings) (read : Json.bindings s = .ok found)
    (increasing : found.Increasing) (refused : ∃ b ∈ found, ¬ IsName b.1) :
    ∃ b ∈ found, ¬ IsName b.1 ∧ ofJson s = .error (.variableName b.1) ∧
      ∀ other ∈ found, ¬ IsName other.1 → b.1 = other.1 ∨ b.1 < other.1 := by
  rw [of_json_read s found read]
  cases first : found.find? fun b => !isName b.1 with
  | none =>
      obtain ⟨b, member, invalid⟩ := refused
      exact absurd ((all_names_iff found).1 first b member) invalid
  | some b =>
      obtain ⟨invalid, before, after, rfl, valid⟩ := List.find?_eq_some_iff_append.1 first
      have refused : ¬ IsName b.1 := by
        rw [← named_iff]
        simpa using invalid
      refine ⟨b, List.mem_append_right before List.mem_cons_self, refused, rfl, ?_⟩
      intro other member different
      rcases List.mem_append.1 member with front | behind
      · have named : isName other.1 = true := by simpa using valid other front
        exact absurd ((named_iff _).1 named) different
      · rcases List.mem_cons.1 behind with rfl | later
        · exact .inl rfl
        · have order := (List.pairwise_append.1 increasing).2.1
          exact .inr ((List.pairwise_cons.1 order).1 other later)

theorem of_json_byte_order (s : Text) (found : Bindings) (reads : ofJson s = .ok found) :
    found.Pairwise fun a b => Text.encoded a.1 < Text.encoded b.1 := by
  obtain ⟨⟨pairs, _, stores⟩, _⟩ := (of_json_iff s found).1 reads
  exact (stored_holds found pairs stores).1.imp fun less => Text.encoded_increases _ _ less

theorem holds_finite (found : Bindings) (pairs : List (Text × Written.Number)) (holds : found.Holds pairs) :
    ∀ b ∈ found, b.2.isFinite = true := by
  rintro ⟨name, x⟩ member
  obtain ⟨_, _, v, read, rfl⟩ := (holds name x).1 member
  exact Json.number_finite _ v read

theorem holds_names (found : Bindings) (pairs : List (Text × Written.Number)) (holds : found.Holds pairs)
    (readable : ∀ p ∈ pairs, ∃ x, Json.Reads p.2 x) (name : Text) :
    (∃ b ∈ found, b.1 = name) ↔ ∃ p ∈ pairs, p.1 = name := by
  constructor
  · rintro ⟨⟨_, x⟩, member, rfl⟩
    obtain ⟨n, last, _⟩ := (holds _ x).1 member
    exact ⟨_, Json.last_member pairs _ n last, rfl⟩
  · intro named
    obtain ⟨n, last⟩ := Json.last_exists pairs name named
    obtain ⟨x, reads⟩ := readable _ (Json.last_member pairs name n last)
    exact ⟨(name, x), (holds name x).2 ⟨n, last, reads⟩, rfl⟩

-- An object of numbers is read as what its last numbers are under each name, in the order of bytes, if
-- all names pass, and refused with the least of the others if not.
theorem json_environment :
    (∀ s found, ofJson s = .ok found →
      (found.Pairwise fun a b => Text.encoded a.1 < Text.encoded b.1) ∧
      (∀ b ∈ found, IsName b.1 ∧ b.2.isFinite = true) ∧
      ∃ pairs, Json.Object Json.Spells s pairs ∧ found.Holds pairs) ∧
    (∀ s pairs, Json.Object Json.Spells s pairs → (∀ p ∈ pairs, ∃ x, Json.Reads p.2 x) →
      ((∀ p ∈ pairs, IsName p.1) → ∃ found, ofJson s = .ok found ∧ found.Holds pairs) ∧
      ((∃ p ∈ pairs, ¬ IsName p.1) → ∃ p ∈ pairs, ¬ IsName p.1 ∧
        ofJson s = .error (.variableName p.1) ∧
        (ConfigError.variableName p.1).message.toList =
          "config error: invalid variable name '".toList ++ p.1 ++
            "'; expected ASCII letters and digits".toList ∧
        ∀ q ∈ pairs, ¬ IsName q.1 → Text.encoded p.1 ≤ Text.encoded q.1)) ∧
    ∀ n : Written.Number, Written.powerValue n.power ≤ Json.largestExponent →
      n.rational ≤ Json.safeLimit → ∃ x, Json.Reads n x := by
  refine ⟨?_, ?_, Json.reads_in_range⟩
  · intro s found read
    obtain ⟨⟨pairs, object, stores⟩, names⟩ := (of_json_iff s found).1 read
    have holds := (stored_holds found pairs stores).2
    exact ⟨of_json_byte_order s found read,
      fun b member => ⟨names b member, holds_finite found pairs holds b member⟩, pairs, object, holds⟩
  · intro s pairs object readable
    obtain ⟨found, stores⟩ := Json.stores_exists [] pairs readable
    obtain ⟨increasing, holds⟩ := stored_holds found pairs stores
    have named := holds_names found pairs holds readable
    refine ⟨fun names => ⟨found, (of_json_iff s found).2 ⟨⟨pairs, object, stores⟩, ?_⟩, holds⟩, ?_⟩
    · intro b member
      obtain ⟨p, within, same⟩ := (named b.1).1 ⟨b, member, rfl⟩
      exact same ▸ names p within
    · rintro ⟨p, within, invalid⟩
      have read := (Json.bindings_iff s found).2 ⟨pairs, object, stores⟩
      obtain ⟨b, member, same⟩ := (named p.1).2 ⟨p, within, rfl⟩
      obtain ⟨least, inside, refused, error, smallest⟩ :=
        of_json_refused s found read increasing ⟨b, member, same ▸ invalid⟩
      obtain ⟨q, listed, called⟩ := (named least.1).1 ⟨least, inside, rfl⟩
      refine ⟨q, listed, called ▸ refused, called ▸ error, Worded.config (.variableName q.1), ?_⟩
      intro other among different
      obtain ⟨held, kept, called'⟩ := (named other.1).2 ⟨other, among, rfl⟩
      rw [called, ← called']
      rcases smallest held kept (called' ▸ different) with equal | less
      · rw [equal]
        exact List.le_refl _
      · exact List.le_of_lt (Text.encoded_increases _ _ less)

def repeatedName : Text :=
  ['{', '"', 'b', '"', ':', '2', ',', '"', 'a', '"', ':', '1', ',', '"', '\\', 'u', '0', '0', '6',
    '2', '"', ':', '3', '}']

def twoNames : Bindings :=
  [(['a'], .finite false ⟨0x3FF0000000000000, by decide⟩),
    (['b'], .finite false ⟨0x4008000000000000, by decide⟩)]

theorem last_number_counts : ofJson repeatedName = .ok twoNames ∧
    ∃ pairs, Json.Object Json.Spells repeatedName pairs ∧ twoNames.Holds pairs := by
  have read : ofJson repeatedName = .ok twoNames := by
    have known : (ofJson repeatedName).toOption = some twoNames := by decide +kernel
    cases shape : ofJson repeatedName with
    | error fault => rw [shape] at known; cases known
    | ok found => rw [shape] at known; cases known; rfl
  exact ⟨read, (json_environment.1 _ _ read).2.2⟩

-- A number below the largest one, between it and the number before.
def nearLargest : Written.Number :=
  let digits : Written.SomeDigits := ⟨⟨['1', '7', '9', '7', '6', '9', '3', '1', '3', '4', '8', '6', '2',
    '3', '1', '5', '7', '0', '8'], List.all_eq_true.1 rfl⟩, nofun⟩
  let power : Written.SomeDigits := ⟨⟨['2', '9', '0'], List.all_eq_true.1 rfl⟩, nofun⟩
  ⟨none, .whole digits none, some ⟨false, none, power⟩⟩

def nearLargestBound : Text := ['{', '"', 'x', '"', ':'] ++ (nearLargest.text ++ ['}'])

-- Its two factors are rounded up, and so is their product.
theorem in_range_refused :
    Json.Object Json.Spells nearLargestBound [(['x'], nearLargest)] ∧ IsName ['x'] ∧
      nearLargest.rational * Binary64.unitsPerOne ≤ Binary64.units Binary64.largestCode ∧
      ofJson nearLargestBound = .error (.bindings .outOfRange ⟨1, 28⟩) := by
  have nothing : Json.Blank [] := nofun
  refine ⟨⟨[], _, [], rfl, nothing, nothing, ?_⟩, (named_iff _).1 rfl, ?_, ?_⟩
  · have spelled : Json.Spelled ['x'] ['x'] :=
      .plain 'x' [] [] (by decide) (by decide) .done
    have close : Json.Members Json.Spells false ['}'] [] [] := .close false [] [] nothing
    have number : Json.IsNumber nearLargest := ⟨by decide, by decide, by decide, by decide⟩
    exact .member true [] ['x'] ['x'] [] [] nearLargest.text _ _ nearLargest [] (.first [] nothing)
      spelled nothing nothing ⟨number, rfl⟩ close
  · have value : nearLargest.decimal = ⟨1797693134862315708, 290⟩ := by decide +kernel
    have whole : 1797693134862315708 * 10 ^ 290 * Binary64.unitsPerOne ≤
        Binary64.units Binary64.largestCode := by decide +kernel
    have cast := Nat.cast_le (α := ℚ).2 whole
    rw [Written.Number.rational, value, Decimal.rational, zpow_ofNat]
    rwa [Nat.cast_mul, Nat.cast_mul, Nat.cast_pow] at cast
  · exact (refusal_some _ _).1 (by decide +kernel)

end Bindings

end ArithTemplate
