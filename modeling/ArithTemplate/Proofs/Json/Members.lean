import ArithTemplate.Json.Reading
import ArithTemplate.Proofs.Json.Quoted
import ArithTemplate.Proofs.Results
import ArithTemplate.Proofs.Runs

set_option autoImplicit false

namespace ArithTemplate.Json

def Blank (s : Text) : Prop := ∀ c ∈ s, isBlank c = true

theorem skip_blank (blank s : Text) (blanks : Blank blank)
    (boundary : ∀ c, s.head? = some c → isBlank c = false) : skipBlank (blank ++ s) = s :=
  run_dropped isBlank blank s blanks boundary

theorem skip_to (blank : Text) (c : Char) (s : Text) (blanks : Blank blank) (visible : isBlank c = false) :
    skipBlank (blank ++ c :: s) = c :: s := by
  refine skip_blank blank _ blanks ?_
  rintro d head
  cases head
  exact visible

theorem skip_splits (s : Text) : ∃ blank, Blank blank ∧ s = blank ++ skipBlank s :=
  ⟨s.takeWhile isBlank, run_inside isBlank s, List.takeWhile_append_dropWhile.symm⟩

theorem blank_iff (c : Char) : isBlank c = true ↔ c = ' ' ∨ c = '\n' ∨ c = '\t' ∨ c = '\r' := by
  simp [isBlank, or_assoc]

theorem blank_no_digit (c : Char) (blank : isBlank c = true) : c.isDigit = false := by
  rcases (blank_iff c).1 blank with rfl | rfl | rfl | rfl <;> rfl

theorem finish_iff (s : Text) : finish s = .ok () ↔ Blank s := by
  rw [finish]
  constructor
  · intro read
    split at read
    · rename_i nothing
      obtain ⟨blank, blanks, split⟩ := skip_splits s
      rw [nothing, List.append_nil] at split
      exact split ▸ blanks
    · cases read
  · intro blanks
    have nothing : skipBlank s = [] := by
      have skipped := skip_blank s [] blanks nofun
      rwa [List.append_nil] at skipped
    rw [if_pos nothing]

theorem string_ok_iff (s content rest : Text) : string s = .ok (content, rest) ↔
    ∃ spelling, s = spelling ++ '"' :: rest ∧ Spelled spelling content := by
  rw [← string_iff, string]
  cases string? s <;> simp

theorem colon_ok_iff (s rest : Text) :
    colon s = .ok rest ↔ ∃ blank, Blank blank ∧ s = blank ++ ':' :: rest := by
  constructor
  · intro read
    obtain ⟨blank, blanks, split⟩ := skip_splits s
    rw [colon] at read
    split at read
    · rename_i behind
      cases read
      exact ⟨blank, blanks, behind ▸ split⟩
    · cases read
  · rintro ⟨blank, blanks, rfl⟩
    rw [colon, skip_to blank _ _ blanks rfl]
    rfl

-- What stands in front of the name of a member.
inductive Opening : Bool → Text → Prop where
  | first (blank : Text) (blanks : Blank blank) : Opening true blank
  | later (before after : Text) (before_blank : Blank before) (after_blank : Blank after) :
      Opening false (before ++ ',' :: after)

-- The grammar of the members of an object, from behind its opening brace to behind its closing one.
inductive Members {Content : Type} (Value : Text → Content → Prop) :
    Bool → Text → List (Text × Content) → Text → Prop where
  | close (first : Bool) (blank rest : Text) (blanks : Blank blank) :
      Members Value first (blank ++ '}' :: rest) [] rest
  | member (first : Bool) (front spelling name before after value s rest : Text) (content : Content)
      (members : List (Text × Content)) (opening : Opening first front)
      (spelled : Spelled spelling name) (before_blank : Blank before) (after_blank : Blank after)
      (valued : Value value content) (later : Members Value false s members rest) :
      Members Value first (front ++ '"' :: (spelling ++ '"' :: (before ++ ':' :: (after ++ (value ++ s)))))
        ((name, content) :: members) rest

def Object {Content : Type} (Value : Text → Content → Prop) (s : Text)
    (pairs : List (Text × Content)) : Prop :=
  ∃ before inside after, s = before ++ '{' :: inside ∧ Blank before ∧ Blank after ∧
    Members Value true inside pairs after

theorem mark_head (blank tail : Text) (mark : Char) (blanks : Blank blank) :
    ∀ c, (blank ++ mark :: tail).head? = some c → isBlank c = true ∨ c = mark := by
  intro c head
  cases blank with
  | nil =>
      cases head
      exact .inr rfl
  | cons d more =>
      cases head
      exact .inl (blanks _ List.mem_cons_self)

theorem opening_head (front tail : Text) (opening : Opening false front) :
    ∀ c, (front ++ tail).head? = some c → isBlank c = true ∨ c = ',' := by
  cases opening with
  | later before after blanks _ =>
      rw [List.append_assoc, List.cons_append]
      exact mark_head before _ ',' blanks

-- Behind a value stand blanks and then a comma or the closing brace.
theorem members_head {Content : Type} (Value : Text → Content → Prop) (s rest : Text)
    (pairs : List (Text × Content)) (members : Members Value false s pairs rest) :
    ∀ c, s.head? = some c → isBlank c = true ∨ c = ',' ∨ c = '}' := by
  intro c head
  cases members with
  | close _ blank _ blanks => exact (mark_head blank rest '}' blanks c head).imp_right .inr
  | member _ front _ _ _ _ _ _ _ _ _ opening _ _ _ _ _ =>
      exact (opening_head front _ opening c head).imp_right .inl

section Reader

variable {State : Type} (member : State → Text → Text → Except Misread (State × Text))

-- How a reader of members goes over them: what it makes of a state, and what it leaves.
inductive Listed : Bool → State → Text → State → Text → Prop where
  | close (first : Bool) (state : State) (blank rest : Text) (blanks : Blank blank) :
      Listed first state (blank ++ '}' :: rest) state rest
  | member (first : Bool) (state next final : State) (front spelling name body after rest : Text)
      (opening : Opening first front) (spelled : Spelled spelling name)
      (read : member state name body = .ok (next, after)) (later : Listed false next after final rest) :
      Listed first state (front ++ '"' :: (spelling ++ '"' :: body)) final rest

def readNamed (rounds : Nat) (state : State) (s : Text) : Except Misread (State × Text) :=
  string s >>= fun name => member state name.1 name.2 >>= fun next =>
    members member rounds false next.1 next.2

def readQuoted (rounds : Nat) (state : State) : Text → Except Misread (State × Text)
  | '"' :: inside => readNamed member rounds state inside
  | other => .error ⟨.malformed, other⟩

theorem read_named (rounds : Nat) (state : State) (s name body : Text) (named : string s = .ok (name, body)) :
    readNamed member rounds state s =
      member state name body >>= fun next => members member rounds false next.1 next.2 := by
  rw [readNamed, named]
  rfl

theorem members_close (rounds : Nat) (first : Bool) (state : State) (blank rest : Text)
    (blanks : Blank blank) :
    members member (rounds + 1) first state (blank ++ '}' :: rest) = .ok (state, rest) := by
  rw [members, skip_to blank _ _ blanks rfl]
  rfl

theorem members_open (rounds : Nat) (first : Bool) (state : State) (front s : Text)
    (opening : Opening first front) :
    members member (rounds + 1) first state (front ++ '"' :: s) = readNamed member rounds state s := by
  cases opening with
  | first blank blanks =>
      rw [members, skip_to front _ _ blanks rfl]
      rfl
  | later before after before_blank after_blank =>
      have comma : members member (rounds + 1) false state (before ++ ',' :: (after ++ '"' :: s)) =
          readQuoted member rounds state (skipBlank (after ++ '"' :: s)) := by
        rw [members, skip_to before _ _ before_blank rfl]
        rfl
      rw [List.append_assoc, List.cons_append, comma, skip_to after _ _ after_blank rfl]
      rfl

theorem members_cases (rounds : Nat) (first : Bool) (state : State) (s : Text)
    (result : State × Text) (read : members member rounds first state s = .ok result) :
    (∃ blank, Blank blank ∧ s = blank ++ '}' :: result.2 ∧ result.1 = state) ∨
      ∃ fewer front inside, rounds = fewer + 1 ∧ Opening first front ∧ s = front ++ '"' :: inside ∧
        readNamed member fewer state inside = .ok result := by
  cases rounds with
  | zero => cases read
  | succ fewer =>
      obtain ⟨blank, blanks, split⟩ := skip_splits s
      rw [members] at read
      dsimp only at read
      split at read
      · rename_i shape
        cases read
        exact .inl ⟨blank, blanks, shape ▸ split, rfl⟩
      · rename_i rest shape
        split at read
        · cases read
        · rename_i notFirst
          obtain ⟨blank', blanks', split'⟩ := skip_splits rest
          split at read
          · rename_i inside shape'
            refine .inr ⟨fewer, blank ++ ',' :: blank', inside, rfl, ?_, ?_, read⟩
            · rw [Bool.eq_false_iff.2 notFirst]
              exact .later blank blank' blanks blanks'
            · rw [split, shape, split', shape', List.append_assoc, List.cons_append]
          · cases read
      · split at read
        · rename_i isFirst
          split at read
          · rename_i inside shape
            subst isFirst
            exact .inr ⟨fewer, blank, inside, rfl, .first blank blanks, shape ▸ split, read⟩
          · cases read
        · cases read

theorem listed_of_members (rounds : Nat) (first : Bool) (state : State) (s : Text)
    (result : State × Text) (read : members member rounds first state s = .ok result) :
    Listed member first state s result.1 result.2 := by
  induction rounds generalizing first state s with
  | zero => cases read
  | succ rounds hypothesis =>
      rcases members_cases member _ first state s result read with
        ⟨blank, blanks, rfl, same⟩ | ⟨fewer, front, inside, same, opening, rfl, read⟩
      · rw [same]
        exact .close first state blank result.2 blanks
      · cases same
        obtain ⟨⟨name, body⟩, named, inner⟩ := bind_gives _ _ _ read
        obtain ⟨⟨next, after⟩, found, behind⟩ := bind_gives _ _ _ inner
        obtain ⟨spelling, rfl, spelled⟩ := (string_ok_iff _ _ _).1 named
        exact .member first state next _ front spelling name body after _ opening spelled found
          (hypothesis false next after behind)

theorem members_of_listed
    (shorter : ∀ state name s next after, member state name s = .ok (next, after) →
      after.length ≤ s.length)
    (first : Bool) (state final : State) (s rest : Text)
    (listed : Listed member first state s final rest) (rounds : Nat) (enough : s.length ≤ rounds) :
    members member rounds first state s = .ok (final, rest) := by
  induction listed generalizing rounds with
  | close first state blank rest blanks =>
      obtain ⟨fewer, rfl⟩ : ∃ fewer, rounds = fewer + 1 := by
        simp only [List.length_append, List.length_cons] at enough
        exact ⟨rounds - 1, by omega⟩
      exact members_close member fewer first state blank rest blanks
  | member first state next final front spelling name body after rest opening spelled read _ hypothesis =>
      have less := shorter _ _ _ _ _ read
      simp only [List.length_append, List.length_cons] at enough
      obtain ⟨fewer, rfl⟩ : ∃ fewer, rounds = fewer + 1 := ⟨rounds - 1, by omega⟩
      have named := (string_ok_iff (spelling ++ '"' :: body) name body).2 ⟨spelling, rfl, spelled⟩
      rw [members_open member fewer first state front _ opening, read_named member fewer state _ _ _ named, read]
      exact hypothesis fewer (by omega)

end Reader

end ArithTemplate.Json
