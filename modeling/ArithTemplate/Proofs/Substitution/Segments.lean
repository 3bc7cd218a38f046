import ArithTemplate.Proofs.Clipping
import ArithTemplate.Proofs.Substitution.Replacing

set_option autoImplicit false

open ArithTemplate.Text (bytes LongestPrefix)

namespace ArithTemplate

-- Goes on with what comes next as long as nothing was cut.
def Sink.further (sink : Sink) (next : Sink → Sink) : Sink := if sink.full then sink else next sink

theorem further_holding (capacity : Nat) (t s : Text) (next : Sink → Sink)
    (takes : next (Sink.holding capacity t) = Sink.holding capacity (t ++ s)) :
    (Sink.holding capacity t).further next = Sink.holding capacity (t ++ s) := by
  rw [Sink.further]
  by_cases full : (Sink.holding capacity t).full = true
  · rw [if_pos full, ← Sink.holding_push, Sink.push_full _ s full]
  · rw [if_neg full, takes]

namespace Bindings

variable (bindings : Bindings)

-- The value of the name in front of the next underscore, and what follows them.
def closing (inside : Text) : Option (Binary64 × Text) :=
  (Text.cut '_' inside).bind fun (name, rest) => (bindings.value? name).map fun value => (value, rest)

theorem closing_bound (name rest : Text) (value : Binary64)
    (bound : bindings.value? name = some value) :
    bindings.closing (name ++ '_' :: rest) = some (value, rest) := by
  have closed := (Text.cut_eq_some_iff '_' _ name rest).2
    ⟨rfl, bindings.bound_closes_nothing name value bound⟩
  simp [closing, closed, bound]

theorem closing_unbound (inside : Text) (unbound : bindings.Unbound inside) :
    bindings.closing inside = none := by
  cases closed : Text.cut '_' inside with
  | none => simp [closing, closed]
  | some parts =>
      obtain ⟨name, rest⟩ := parts
      obtain ⟨shape, _⟩ := (Text.cut_eq_some_iff '_' inside name rest).1 closed
      simp [closing, closed, unbound name rest shape]

theorem closing_shorter (inside rest : Text) (value : Binary64)
    (found : bindings.closing inside = some (value, rest)) : rest.length < inside.length := by
  obtain ⟨⟨name, behind⟩, closed, known⟩ := Option.bind_eq_some_iff.1 found
  obtain ⟨_, _, same⟩ := Option.map_eq_some_iff.1 known
  cases same
  exact Text.length_lt_of_cut closed

-- Replacing piece by piece: the text in front of an underscore, then a value or the underscore.
def pour : Text → Sink → Sink
  | s, sink =>
      match opened : Text.cut '_' s with
      | none => sink.push s
      | some (before, inside) =>
          have shorter : inside.length < s.length := Text.length_lt_of_cut opened
          (sink.push before).further fun written =>
            match found : bindings.closing inside with
            | some (value, rest) =>
                have : rest.length < s.length :=
                  Nat.lt_trans (bindings.closing_shorter inside rest value found) shorter
                (written.push value.text).further fun filled => pour rest filled
            | none => (written.push ['_']).further fun filled => pour inside filled
termination_by s => s.length

theorem pour_plain (s : Text) (sink : Sink) (plain : '_' ∉ s) : bindings.pour s sink = sink.push s := by
  have opened := (Text.cut_eq_none_iff '_' s).2 plain
  rw [pour]
  split
  · rfl
  · rename_i found
    cases opened.symm.trans found

theorem pour_open (before inside : Text) (sink : Sink) (plain : '_' ∉ before) :
    bindings.pour (before ++ '_' :: inside) sink = (sink.push before).further fun written =>
      match bindings.closing inside with
      | some (value, rest) => (written.push value.text).further (bindings.pour rest)
      | none => (written.push ['_']).further (bindings.pour inside) := by
  have opened := (Text.cut_eq_some_iff '_' _ before inside).2 ⟨rfl, plain⟩
  rw [pour]
  split
  · rename_i found
    cases opened.symm.trans found
  · rename_i found
    cases opened.symm.trans found
    refine congrArg (Sink.further _) (funext fun written => ?_)
    split
    · rename_i known
      simp only [known]
    · rename_i known
      simp only [known]

-- Whatever is in the sink already, pouring adds the replaced text to it.
theorem pour_holding (s t : Text) (capacity : Nat) :
    bindings.pour s (Sink.holding capacity t) = Sink.holding capacity (t ++ bindings.replace s) := by
  induction s using replace_induction bindings generalizing t with
  | plain s plain => rw [bindings.pour_plain s _ plain, Sink.holding_push, bindings.replace_plain s plain]
  | bound before name rest value plain known hypothesis =>
      rw [bindings.pour_open before _ _ plain, Sink.holding_push,
        bindings.replace_bound before name rest value plain known, ← List.append_assoc]
      apply further_holding
      rw [bindings.closing_bound name rest value known]
      dsimp only
      rw [Sink.holding_push, ← List.append_assoc]
      exact further_holding _ _ _ _ (hypothesis _)
  | unbound before inside plain unknown hypothesis =>
      have step : t ++ (before ++ '_' :: bindings.replace inside) =
          t ++ before ++ (['_'] ++ bindings.replace inside) := by simp
      rw [bindings.pour_open before _ _ plain, Sink.holding_push,
        bindings.replace_unbound before inside plain unknown, step]
      apply further_holding
      rw [bindings.closing_unbound inside unknown]
      dsimp only
      rw [Sink.holding_push, ← List.append_assoc]
      exact further_holding _ _ _ _ (hypothesis _)

-- The segments behind the first one, put together again. The underscore that closes a bound name
-- has opened nothing, so the segment behind it is copied as it is.
def joined : List Text → Text
  | [] => []
  | [last] => '_' :: last
  | name :: next :: rest =>
      match bindings.value? name with
      | some value => value.text ++ (next ++ joined rest)
      | none => '_' :: (name ++ joined (next :: rest))

theorem split_first (s first second : Text) (rest : List Text)
    (split : s.splitOn '_' = first :: second :: rest) : ∃ behind, s = first ++ '_' :: behind := by
  have whole : ['_'].intercalate (s.splitOn '_') = s := List.intercalate_splitOn '_'
  rw [split, List.intercalate_cons_cons] at whole
  exact ⟨_, by simpa using whole.symm⟩

theorem replace_joined (s first : Text) (rest : List Text) (split : s.splitOn '_' = first :: rest) :
    bindings.replace s = first ++ bindings.joined rest := by
  induction s using replace_induction bindings generalizing first rest with
  | plain s plain =>
      rw [List.splitOn_eq_singleton plain] at split
      cases split
      rw [bindings.replace_plain s plain, joined, List.append_nil]
  | bound before name behind value plain known hypothesis =>
      have closes := bindings.bound_closes_nothing name value known
      rw [List.splitOn_append_cons_self_of_not_mem plain,
        List.splitOn_append_cons_self_of_not_mem closes] at split
      cases segments : behind.splitOn '_' with
      | nil => exact absurd segments (List.splitOn_ne_nil '_' behind)
      | cons next later =>
          rw [segments] at split
          cases split
          rw [bindings.replace_bound before name behind value plain known, joined, known,
            hypothesis next later segments]
  | unbound before inside plain unknown hypothesis =>
      rw [List.splitOn_append_cons_self_of_not_mem plain] at split
      cases segments : inside.splitOn '_' with
      | nil => exact absurd segments (List.splitOn_ne_nil '_' inside)
      | cons name later =>
          rw [segments] at split
          cases split
          rw [bindings.replace_unbound before inside plain unknown, hypothesis name later segments]
          cases later with
          | nil => simp [joined]
          | cons next more =>
              obtain ⟨behind, shape⟩ := split_first inside name next more segments
              rw [joined, unknown name behind shape]

-- Bindings that give the same value to every name that is one.
def Alike (other : Bindings) : Prop :=
  ∀ name, isName name = true → bindings.value? name = other.value? name

def ReplacesLike (other : Bindings) : Prop :=
  ∀ capacity s, bindings.replaceWithin capacity s = other.replaceWithin capacity s

variable (other : Bindings)

theorem alike_values (alike : bindings.Alike other) (name : Text) :
    bindings.value? name = other.value? name := by
  by_cases valid : isName name = true
  · exact alike name valid
  · rw [value?, value?, if_neg valid, if_neg valid]

theorem alike_joined (alike : bindings.Alike other) (segments : List Text) :
    bindings.joined segments = other.joined segments := by
  induction segments using joined.induct bindings with
  | case1 => rfl
  | case2 last => rfl
  | case3 name next rest value known hypothesis =>
      have known' := (alike_values bindings other alike name).symm.trans known
      rw [joined, joined, known, known', hypothesis]
  | case4 name next rest unknown hypothesis =>
      have unknown' := (alike_values bindings other alike name).symm.trans unknown
      rw [joined, joined, unknown, unknown', hypothesis]

theorem alike_replace (alike : bindings.Alike other) (s : Text) :
    bindings.replace s = other.replace s := by
  cases segments : s.splitOn '_' with
  | nil => exact absurd segments (List.splitOn_ne_nil '_' s)
  | cons first rest =>
      rw [bindings.replace_joined s first rest segments, other.replace_joined s first rest segments,
        alike_joined bindings other alike]

theorem alike_replaces (alike : bindings.Alike other) : bindings.ReplacesLike other := by
  intro capacity s
  rw [replaceWithin, replaceWithin, alike_replace bindings other alike s]

theorem found_replaces (same : ∀ name, isName name = true →
    bindings.find? (·.1 == name) = other.find? (·.1 == name)) : bindings.ReplacesLike other := by
  apply alike_replaces
  intro name valid
  rw [value?, value?, if_pos valid, if_pos valid, same name valid]

theorem reordered_replaces (order : ∀ name : Text,
    bindings.filter (·.1 == name) = other.filter (·.1 == name)) : bindings.ReplacesLike other := by
  apply found_replaces
  intro name _
  rw [← List.head?_filter, ← List.head?_filter, order name]

theorem without_later_replaces (before after : Bindings) (later : Text × Binary64)
    (bound : ∃ earlier ∈ before, earlier.1 = later.1) :
    ReplacesLike (before ++ later :: after) (before ++ after) := by
  obtain ⟨earlier, member, same⟩ := bound
  apply found_replaces
  intro name _
  rw [List.find?_append, List.find?_append]
  by_cases named : (later.1 == name) = true
  · have first : (before.find? (·.1 == name)).isSome = true := by
      rw [List.find?_isSome]
      exact ⟨earlier, member, by rwa [same]⟩
    rw [Option.or_of_isSome first, Option.or_of_isSome first]
  · have skipped : (later :: after).find? (·.1 == name) = after.find? (·.1 == name) :=
      List.find?_cons_of_neg named
    rw [skipped]

theorem without_invalid_replaces (keep : Text × Binary64 → Bool)
    (valid : ∀ b ∈ bindings, isName b.1 = true → keep b = true) :
    bindings.ReplacesLike (bindings.filter keep) := by
  apply found_replaces
  intro name proper
  rw [List.find?_filter]
  induction bindings with
  | nil => rfl
  | cons first rest hypothesis =>
      obtain ⟨here, later⟩ := List.forall_mem_cons.1 valid
      by_cases named : first.1 = name
      · have kept : keep first = true := here (named ▸ proper)
        simp [named, kept]
      · simpa [named] using hypothesis later

-- Replacing goes by the segments between underscores, whatever is cut off at the end, and by the
-- first value of each name.
theorem replace_within_by_segments :
    (∀ capacity s, ∃ first rest, s.splitOn '_' = first :: rest ∧
      let whole := first ++ bindings.joined rest
      let replaced := bindings.replaceWithin capacity s
      LongestPrefix capacity whole replaced.1 ∧
        replaced.2 = (if capacity < bytes whole then [.variableOverflow capacity] else []) ∧
        bindings.pour s (Sink.empty capacity) =
          ⟨capacity, replaced.1, decide (capacity < bytes whole)⟩) ∧
    (∀ name value, bindings.value? name = some value ↔
      (name ≠ [] ∧ ∀ c ∈ name, c.isAlphanum = true) ∧ bindings.Binds name value) ∧
    (∀ other : Bindings, bindings.Alike other → bindings.ReplacesLike other) ∧
    (∀ other : Bindings,
      (∀ name : Text, bindings.filter (·.1 == name) = other.filter (·.1 == name)) →
        bindings.ReplacesLike other) ∧
    (∀ before after later, bindings = before ++ later :: after →
      (∃ earlier ∈ before, earlier.1 = later.1) → bindings.ReplacesLike (before ++ after)) ∧
    ∀ keep, (∀ b ∈ bindings, isName b.1 = true → keep b = true) →
      bindings.ReplacesLike (bindings.filter keep) := by
  refine ⟨fun capacity s => ?_, fun name value => ?_, bindings.alike_replaces,
    bindings.reordered_replaces, ?_, bindings.without_invalid_replaces⟩
  · cases segments : s.splitOn '_' with
    | nil => exact absurd segments (List.splitOn_ne_nil '_' s)
    | cons first rest =>
        have whole := bindings.replace_joined s first rest segments
        have sink : (Sink.empty capacity).push (bindings.replace s) =
            Sink.holding capacity (bindings.replace s) := Sink.holding_push capacity [] _
        have poured := bindings.pour_holding s [] capacity
        refine ⟨first, rest, rfl, ?_⟩
        dsimp only
        rw [replaceWithin, sink, ← whole]
        refine ⟨Text.clip_longest capacity _, ?_, poured⟩
        simp [Sink.holding]
  · rw [bindings.value_iff_binds, is_name_iff]
  · intro before after later shape bound
    rw [shape]
    exact without_later_replaces before after later bound

end Bindings
end ArithTemplate
