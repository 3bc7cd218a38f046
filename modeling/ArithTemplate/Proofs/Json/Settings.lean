import ArithTemplate.Proofs.Json.Given

set_option autoImplicit false

namespace ArithTemplate

namespace Json

section Positions

theorem array_ok_iff (s rest : Text) (given : Given) :
    settingsArray s = .ok (given, rest) ↔
      (skipBlank s = ']' :: rest ∧ given = ⟨none, none⟩) ∨
      ∃ n afterFirst, capacity s = .ok (n, afterFirst) ∧
        ((skipBlank afterFirst = ']' :: rest ∧ given = ⟨some n, none⟩) ∨
        ∃ afterComma m afterSecond, skipBlank afterFirst = ',' :: afterComma ∧
          mode afterComma = .ok (m, afterSecond) ∧ skipBlank afterSecond = ']' :: rest ∧
          given = ⟨some n, some m⟩) := by
  rw [settingsArray.eq_def]
  constructor
  · intro read
    split at read
    · rename_i shape
      cases read
      exact .inl ⟨shape, rfl⟩
    · obtain ⟨⟨n, afterFirst⟩, first, read⟩ := bind_gives _ _ _ read
      refine .inr ⟨n, afterFirst, first, ?_⟩
      dsimp only at read
      split at read
      · rename_i shape
        cases read
        exact .inl ⟨shape, rfl⟩
      · rename_i afterComma shape
        obtain ⟨⟨m, afterSecond⟩, second, read⟩ := bind_gives _ _ _ read
        dsimp only at read
        split at read
        · rename_i shape'
          cases read
          exact .inr ⟨afterComma, m, afterSecond, shape, second, shape', rfl⟩
        · cases read
      · cases read
  · rintro (⟨shape, rfl⟩ | ⟨n, afterFirst, first, known⟩)
    · rw [shape]
      rfl
    · split
      · rename_i shape
        obtain ⟨starts, _⟩ := (capacity_ok_iff s afterFirst n).1 first
        rw [shape] at starts
        cases starts
      · rw [first]
        rcases known with ⟨shape, rfl⟩ | ⟨afterComma, m, afterSecond, shape, second, shape', rfl⟩
        · simp only [bind, Except.bind, shape]
          rfl
        · simp [bind, Except.bind, pure, Except.pure, shape, second, shape']

theorem items_closed_iff (first : Bool) (s after rest : Text) (items : List Value)
    (listed : Items Shows first s items after) : skipBlank s = ']' :: rest ↔ items = [] ∧ rest = after := by
  cases listed with
  | close _ blank _ blanks =>
      rw [skip_to blank _ _ blanks rfl]
      simp [eq_comm]
  | item _ front text behind _ v items opening shown later =>
      cases opening with
      | first blank blanks =>
          rw [skip_value text v shown front behind blanks]
          obtain ⟨c, tail, rfl, leads⟩ := value_leads text v shown
          constructor
          · intro same
            exact absurd (List.cons.inj same).1 (leads_visible v c leads).2
          · rintro ⟨absurd, _⟩
            cases absurd
      | later before after blanks _ =>
          rw [List.append_assoc, List.cons_append,
            skip_to before _ _ blanks rfl]
          simp

inductive Positional : List Value → Given → Prop where
  | none : Positional [] ⟨none, none⟩
  | one (c : Value) (n : ℕ) (is : IsCapacity c n) : Positional [c] ⟨some n, none⟩
  | two (c v : Value) (n : ℕ) (m : Strictness) (is : IsCapacity c n) (is' : IsMode v m) :
      Positional [c, v] ⟨some n, some m⟩

-- Behind the first item there is the end, or a mode and the end.
theorem second_iff (s after rest : Text) (items : List Value) (n : ℕ) (given : Given)
    (listed : Items Shows false s items after) :
    ((skipBlank s = ']' :: rest ∧ given = ⟨some n, none⟩) ∨
      ∃ afterComma m afterSecond, skipBlank s = ',' :: afterComma ∧
        mode afterComma = .ok (m, afterSecond) ∧ skipBlank afterSecond = ']' :: rest ∧
        given = ⟨some n, some m⟩) ↔
    ((items = [] ∧ given = ⟨some n, none⟩) ∨
      ∃ v m, items = [v] ∧ IsMode v m ∧ given = ⟨some n, some m⟩) ∧ rest = after := by
  rw [items_closed_iff false s after rest items listed]
  constructor
  · rintro (⟨⟨rfl, same⟩, rfl⟩ | ⟨afterComma, m, afterSecond, comma, second, closed, rfl⟩)
    · exact ⟨.inl ⟨rfl, rfl⟩, same⟩
    · cases listed with
      | close _ blank _ blanks =>
          rw [skip_to blank _ _ blanks rfl] at comma
          cases comma
      | item _ front text behind _ v items opening shown later =>
          cases opening with
          | later before behindComma beforeBlank blanks =>
              rw [List.append_assoc, List.cons_append,
                skip_to before _ _ beforeBlank rfl] at comma
              cases comma
              obtain ⟨is, rfl⟩ := (mode_iff behindComma text behind _ v m blanks shown).1 second
              obtain ⟨rfl, same⟩ := (items_closed_iff false _ after rest items later).1 closed
              exact ⟨.inr ⟨v, m, rfl, is, rfl⟩, same⟩
  · rintro ⟨⟨rfl, rfl⟩ | ⟨v, m, rfl, is, rfl⟩, rfl⟩
    · exact .inl ⟨⟨rfl, rfl⟩, rfl⟩
    · cases listed with
      | item _ front text behind _ _ _ opening shown later =>
          cases opening with
          | later before behindComma beforeBlank blanks =>
              refine .inr ⟨behindComma ++ (text ++ behind), m, behind, ?_,
                (mode_iff _ text behind _ v m blanks shown).2 ⟨is, rfl⟩,
                (items_closed_iff false behind rest rest [] later).2 ⟨rfl, rfl⟩, rfl⟩
              rw [List.append_assoc, List.cons_append,
                skip_to before _ _ beforeBlank rfl]

theorem array_iff (s after rest : Text) (items : List Value) (given : Given)
    (listed : Items Shows true s items after) :
    settingsArray s = .ok (given, rest) ↔ Positional items given ∧ rest = after := by
  rw [array_ok_iff, items_closed_iff true s after rest items listed]
  constructor
  · rintro (⟨⟨rfl, same⟩, rfl⟩ | ⟨n, afterFirst, first, known⟩)
    · exact ⟨.none, same⟩
    · cases listed with
      | close _ blank _ blanks =>
          obtain ⟨starts, _⟩ := (capacity_ok_iff _ afterFirst n).1 first
          rw [skip_to blank _ _ blanks rfl] at starts
          cases starts
      | item _ front text behind _ c items opening shown later =>
          cases opening with
          | first blank blanks =>
              have stops := items_stop behind after items later
              obtain ⟨is, rfl⟩ := (capacity_iff front text behind _ c n blanks shown stops).1 first
              obtain ⟨⟨rfl, rfl⟩ | ⟨v, m, rfl, is', rfl⟩, same⟩ :=
                (second_iff _ after rest items n given later).1 known
              · exact ⟨.one c n is, same⟩
              · exact ⟨.two c v n m is is', same⟩
  · rintro ⟨positional, rfl⟩
    have first (c : Value) (more : List Value) (n : ℕ) (is : IsCapacity c n) (same : items = c :: more) :
        ∃ behind, capacity s = .ok (n, behind) ∧ Items Shows false behind more rest := by
      subst same
      cases listed with
      | item _ front text behind _ _ _ opening shown later =>
          cases opening with
          | first blank blanks =>
              have stops := items_stop behind rest more later
              exact ⟨behind, (capacity_iff front text behind _ c n blanks shown stops).2 ⟨is, rfl⟩, later⟩
    cases positional with
    | none => exact .inl ⟨⟨rfl, rfl⟩, rfl⟩
    | one c n is =>
        obtain ⟨behind, read, later⟩ := first c [] n is rfl
        exact .inr ⟨n, behind, read,
          (second_iff behind rest rest [] n _ later).2 ⟨.inl ⟨rfl, rfl⟩, rfl⟩⟩
    | two c v n m is is' =>
        obtain ⟨behind, read, later⟩ := first c [v] n is rfl
        exact .inr ⟨n, behind, read,
          (second_iff behind rest rest [v] n _ later).2 ⟨.inr ⟨v, m, rfl, is', rfl⟩, rfl⟩⟩

theorem array_shown (s rest : Text) (given : Given) (read : settingsArray s = .ok (given, rest)) :
    ∃ items, Items Shows true s items rest := by
  rcases (array_ok_iff s rest given).1 read with ⟨closed, _⟩ | ⟨n, afterFirst, first, known⟩
  · obtain ⟨blank, blanks, split⟩ := skip_splits s
    rw [split, closed]
    exact ⟨[], .close true blank rest blanks⟩
  · obtain ⟨front, text, c, rfl, frontBlank, shown⟩ := capacity_shown s afterFirst n first
    have later : ∃ items, Items Shows false afterFirst items rest := by
      obtain ⟨blank, blanks, split⟩ := skip_splits afterFirst
      rcases known with ⟨closed, _⟩ | ⟨afterComma, m, afterSecond, comma, second, closed, _⟩
      · rw [split, closed]
        exact ⟨[], .close false blank rest blanks⟩
      · obtain ⟨front', text', v, rfl, frontBlank', shown'⟩ := mode_shown afterComma afterSecond m second
        obtain ⟨blank', blanks', split'⟩ := skip_splits afterSecond
        rw [closed] at split'
        subst split'
        have item := Items.item false _ text' _ rest v [] (.later blank front' blanks frontBlank') shown'
          (.close false blank' rest blanks')
        refine ⟨[v], ?_⟩
        rw [split, comma]
        simpa using item
    obtain ⟨items, later⟩ := later
    exact ⟨c :: items, .item true front text afterFirst rest c items (.first front frontBlank) shown later⟩

end Positions

-- What a setting is taken from: the value under its name, or its default where there is none.
def Chosen {A : Type} (pairs : List (Text × Value)) (name : Text) (Is : Value → A → Prop)
    (default x : A) : Prop :=
  (∃ v, (name, v) ∈ pairs ∧ Is v x) ∨ ((∀ p ∈ pairs, p.1 ≠ name) ∧ x = default)

structure Understood (pairs : List (Text × Value)) (settings : Settings) : Prop where
  known : ∀ p ∈ pairs, Known p.1
  once : (pairs.map Prod.fst).Nodup
  capacity : Chosen pairs Field.capacity.name.toList IsCapacity 512 settings.capacity
  mode : Chosen pairs Field.mode.name.toList IsMode .strict settings.strictness

theorem chosen_iff {A : Type} (pairs : List (Text × Value)) (name : Text) (Is : Value → A → Prop)
    (default x : A) :
    Chosen pairs name Is default x ↔ ∃ final, Fits none pairs name Is final ∧ final.getD default = x := by
  constructor
  · rintro (⟨v, member, is⟩ | ⟨absent, rfl⟩)
    · exact ⟨some x, .inl ⟨v, x, rfl, member, is, rfl⟩, rfl⟩
    · exact ⟨none, .inr ⟨absent, rfl⟩, rfl⟩
  · rintro ⟨_, ⟨v, y, _, member, is, rfl⟩ | ⟨absent, rfl⟩, rfl⟩
    · exact .inl ⟨v, member, is⟩
    · exact .inr ⟨absent, rfl⟩

theorem understood_iff (pairs : List (Text × Value)) (settings : Settings) :
    Understood pairs settings ↔ ∃ given, Takes ⟨none, none⟩ pairs given ∧ given.settings = settings := by
  constructor
  · rintro ⟨known, once, capacity, mode⟩
    obtain ⟨n, fits, same⟩ := (chosen_iff _ _ _ _ _).1 capacity
    obtain ⟨m, fits', same'⟩ := (chosen_iff _ _ _ _ _).1 mode
    refine ⟨⟨n, m⟩, (takes_iff _ _ _).2 ⟨known, once, fits, fits'⟩, ?_⟩
    rw [Given.settings]
    cases settings
    cases same
    cases same'
    rfl
  · rintro ⟨given, takes, rfl⟩
    obtain ⟨known, once, fits, fits'⟩ := (takes_iff _ _ _).1 takes
    exact ⟨known, once, (chosen_iff _ _ _ _ _).2 ⟨_, fits, rfl⟩, (chosen_iff _ _ _ _ _).2 ⟨_, fits', rfl⟩⟩

def fieldNames : List Text := [Field.capacity.name.toList, Field.mode.name.toList]

theorem takes_capacity (c : Value) (pairs : List (Text × Value)) (final : Given) :
    Takes ⟨none, none⟩ ((Field.capacity.name.toList, c) :: pairs) final ↔
      ∃ n, IsCapacity c n ∧ Takes ⟨some n, none⟩ pairs final := by
  simp [takes_cons_iff, Ne.symm field_names_differ]

theorem takes_mode (n : ℕ) (v : Value) (pairs : List (Text × Value)) (final : Given) :
    Takes ⟨some n, none⟩ ((Field.mode.name.toList, v) :: pairs) final ↔
      ∃ m, IsMode v m ∧ Takes ⟨some n, some m⟩ pairs final := by
  simp [takes_cons_iff, field_names_differ]

theorem positional_iff (items : List Value) (given : Given) :
    Positional items given ↔ items.length ≤ 2 ∧ Takes ⟨none, none⟩ (fieldNames.zip items) given := by
  constructor
  · intro positional
    cases positional with
    | none => exact ⟨by simp, .done _⟩
    | one c n is => exact ⟨by simp, (takes_capacity c [] _).2 ⟨n, is, .done _⟩⟩
    | two c v n m is is' =>
        exact ⟨by simp, (takes_capacity c _ _).2 ⟨n, is, (takes_mode n v [] _).2 ⟨m, is', .done _⟩⟩⟩
  · rintro ⟨short, takes⟩
    match items with
    | [] =>
        cases takes
        exact .none
    | [c] =>
        obtain ⟨n, is, takes⟩ := (takes_capacity c [] _).1 takes
        cases takes
        exact .one c n is
    | [c, v] =>
        obtain ⟨n, is, takes⟩ := (takes_capacity c _ _).1 takes
        obtain ⟨m, is', takes⟩ := (takes_mode n v [] _).1 takes
        cases takes
        exact .two c v n m is is'
    | _ :: _ :: _ :: more =>
        simp only [List.length_cons] at short
        omega

theorem settings_object (s : Text) (pairs : List (Text × Value)) (object : Object Shows s pairs)
    (r : ArithTemplate.Settings) : settings s = .ok r ↔ Understood pairs r := by
  obtain ⟨before, inside, after, rfl, beforeBlank, afterBlank, listed⟩ := object
  have run (given : Given) (rest : Text) := members_iff true inside after pairs listed ⟨none, none⟩ given rest
    inside.length (Nat.le_refl _)
  rw [settings, skip_to before _ _ beforeBlank rfl, understood_iff]
  change (members settingsMember inside.length true ⟨none, none⟩ inside >>= fun read =>
    finish read.2 >>= fun _ => Except.ok read.1.settings) = _ ↔ _
  constructor
  · intro read
    obtain ⟨⟨given, rest⟩, taken, read⟩ := bind_gives _ _ _ read
    obtain ⟨_, _, same⟩ := bind_gives _ _ _ read
    exact ⟨given, ((run given rest).1 taken).1, Except.ok.inj same⟩
  · rintro ⟨given, takes, rfl⟩
    rw [(run given after).2 ⟨takes, rfl⟩]
    change (finish after >>= _) = _
    rw [(finish_iff after).2 afterBlank]
    rfl

theorem settings_sequence (s : Text) (items : List Value) (sequence : Sequence s items)
    (r : ArithTemplate.Settings) :
    settings s = .ok r ↔ items.length ≤ 2 ∧ Understood (fieldNames.zip items) r := by
  obtain ⟨before, inside, after, rfl, beforeBlank, afterBlank, listed⟩ := sequence
  have run (given : Given) (rest : Text) := array_iff inside after rest items given listed
  rw [settings, skip_to before _ _ beforeBlank rfl, understood_iff]
  change (settingsArray inside >>= fun read =>
    finish read.2 >>= fun _ => Except.ok read.1.settings) = _ ↔ _
  constructor
  · intro read
    obtain ⟨⟨given, rest⟩, taken, read⟩ := bind_gives _ _ _ read
    obtain ⟨_, _, same⟩ := bind_gives _ _ _ read
    obtain ⟨short, takes⟩ := (positional_iff items given).1 ((run given rest).1 taken).1
    exact ⟨short, given, takes, Except.ok.inj same⟩
  · rintro ⟨short, given, takes, rfl⟩
    rw [(run given after).2 ⟨(positional_iff items given).2 ⟨short, takes⟩, rfl⟩]
    change (finish after >>= _) = _
    rw [(finish_iff after).2 afterBlank]
    rfl

theorem settings_shown (s : Text) (r : ArithTemplate.Settings) (read : settings s = .ok r) :
    (∃ pairs, Object Shows s pairs) ∨ ∃ items, Sequence s items := by
  obtain ⟨before, beforeBlank, whole⟩ := skip_splits s
  rw [settings] at read
  dsimp only at read
  split at read
  · rename_i inside shape
    obtain ⟨⟨given, rest⟩, taken, read⟩ := bind_gives _ _ _ read
    obtain ⟨⟨⟩, done, _⟩ := bind_gives _ _ _ read
    have listed := listed_of_members settingsMember _ _ _ _ _ taken
    obtain ⟨pairs, members⟩ := listed_shown true _ given inside rest listed
    exact .inl ⟨pairs, before, inside, rest, shape ▸ whole, beforeBlank, (finish_iff rest).1 done, members⟩
  · rename_i inside shape
    obtain ⟨⟨given, rest⟩, taken, read⟩ := bind_gives _ _ _ read
    obtain ⟨⟨⟩, done, _⟩ := bind_gives _ _ _ read
    obtain ⟨items, listed⟩ := array_shown inside rest given taken
    exact .inr ⟨items, before, inside, rest, shape ▸ whole, beforeBlank, (finish_iff rest).1 done, listed⟩
  · cases read

end Json

namespace Settings

open Json (Object Sequence Shows Understood fieldNames)

theorem of_json_iff (s : Text) (settings : Settings) :
    ofJson s = .ok settings ↔ Json.settings s = .ok settings := by
  rw [ofJson]
  constructor
  · exact map_error_gives _ _ _
  · intro read
    rw [read]
    rfl

-- An object is read as settings if all of it is understood, in whatever order and layout it comes;
-- an array stands for the object that gives its items the names of the fields; there is nothing else.
theorem json_understood :
    (∀ s pairs, Object Shows s pairs → ∀ settings, ofJson s = .ok settings ↔ Understood pairs settings) ∧
    (∀ s items, Sequence s items → ∀ settings,
      ofJson s = .ok settings ↔ items.length ≤ 2 ∧ Understood (fieldNames.zip items) settings) ∧
    (∀ s items t, Sequence s items → items.length ≤ 2 → Object Shows t (fieldNames.zip items) →
      ∀ settings, ofJson s = .ok settings ↔ ofJson t = .ok settings) ∧
    ∀ s settings, ofJson s = .ok settings → (∃ pairs, Object Shows s pairs) ∨ ∃ items, Sequence s items := by
  have objects (s : Text) (pairs : List (Text × Json.Value)) (object : Object Shows s pairs)
      (settings : Settings) : ofJson s = .ok settings ↔ Understood pairs settings := by
    rw [of_json_iff]
    exact Json.settings_object s pairs object settings
  have sequences (s : Text) (items : List Json.Value) (sequence : Sequence s items) (settings : Settings) :
      ofJson s = .ok settings ↔ items.length ≤ 2 ∧ Understood (fieldNames.zip items) settings := by
    rw [of_json_iff]
    exact Json.settings_sequence s items sequence settings
  refine ⟨objects, sequences, ?_, ?_⟩
  · intro s items t sequence short object settings
    rw [sequences s items sequence settings, objects t _ object settings]
    exact and_iff_right short
  · intro s settings read
    exact Json.settings_shown s settings ((of_json_iff s settings).1 read)

def escapedName : Text :=
  ['{', '"', 'm', 'o', 'd', 'e', '"', ':', '{', '"', 'l', 'e', 'n', 'i', 'e', 'n', 't', '"', ':',
    'n', 'u', 'l', 'l', '}', ',', ' ', '"', '\\', 'u', '0', '0', '6', '3', 'a', 'p', 'a', 'c', 'i', 't', 'y',
    '"', ':', '5', '}']

def five : Written.Number :=
  ⟨none, .whole ⟨⟨['5'], List.all_eq_true.1 rfl⟩, nofun⟩ none, none⟩

def lenientFive : List (Text × Json.Value) :=
  [(Json.Field.mode.name.toList, .object [(Strictness.lenient.name.toList, .null)]),
    (Json.Field.capacity.name.toList, .number five)]

theorem escaped_name_understood : Object Shows escapedName lenientFive ∧
    ofJson escapedName = .ok ⟨5, .lenient⟩ := by
  have nothing : Json.Blank [] := nofun
  have object : Object Shows escapedName lenientFive := by
    have lenient : Shows ['{', '"', 'l', 'e', 'n', 'i', 'e', 'n', 't', '"', ':', 'n', 'u', 'l', 'l', '}']
        (.object [(Strictness.lenient.name.toList, .null)]) :=
      .object _ _ (.member true [] Strictness.lenient.name.toList _ [] [] ['n', 'u', 'l', 'l'] ['}'] []
        Json.Value.null [] (.first [] nothing) (Json.spelled_plain _ rfl) nothing nothing Shows.null
        (.close false [] [] nothing))
    have number : Shows ['5'] (.number five) := .number five ⟨by decide, by decide, by decide, by decide⟩
    let letter : Json.CodeUnit := ⟨⟨0, false⟩, ⟨0, false⟩, ⟨6, false⟩, ⟨3, false⟩⟩
    have known : Char.ofNat letter.number = 'c' := by decide
    have later : Json.Spelled ['a', 'p', 'a', 'c', 'i', 't', 'y'] ['a', 'p', 'a', 'c', 'i', 't', 'y'] :=
      Json.spelled_plain _ rfl
    have capacity : Json.Spelled (letter.text ++ ['a', 'p', 'a', 'c', 'i', 't', 'y'])
        ['c', 'a', 'p', 'a', 'c', 'i', 't', 'y'] :=
      known ▸ .code letter _ _ (by simp only [Json.IsHigh, Json.IsLow]; decide) later
    have second : Json.Members Shows false _ [(Json.Field.capacity.name.toList, .number five)] [] :=
      .member false [',', ' '] _ _ [] [] _ ['}'] [] _ [] (.later [] [' '] nothing (List.all_eq_true.1 rfl)) capacity
        nothing nothing number (.close false [] [] nothing)
    exact ⟨[], _, [], rfl, nothing, nothing, .member true [] Json.Field.mode.name.toList _ [] [] _ _ [] _ _
      (.first [] nothing) (Json.spelled_plain _ rfl) nothing nothing lenient second⟩
  have understood : Understood lenientFive ⟨5, .lenient⟩ := by
    refine ⟨?_, List.pairwise_pair.2 Json.field_names_differ, .inl ⟨.number five, ?_, ?_⟩,
      .inl ⟨_, List.mem_cons_self, .only .lenient⟩⟩
    · intro p member
      simp only [lenientFive, List.mem_cons, List.not_mem_nil, or_false] at member
      rcases member with rfl | rfl
      · exact ⟨.mode, rfl⟩
      · exact ⟨.capacity, rfl⟩
    · exact List.mem_cons_of_mem _ List.mem_cons_self
    · exact ⟨_, rfl, by decide, by decide⟩
  exact ⟨object, (json_understood.1 _ _ object _).2 understood⟩

end Settings

end ArithTemplate
