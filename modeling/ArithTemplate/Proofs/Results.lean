set_option autoImplicit false

namespace ArithTemplate

theorem bind_gives {Fault A B : Type} (x : Except Fault A) (f : A → Except Fault B) (b : B)
    (gives : x >>= f = .ok b) : ∃ a, x = .ok a ∧ f a = .ok b := by
  cases x with
  | error fault => cases gives
  | ok a => exact ⟨a, rfl, gives⟩

theorem bind_refuses {Fault A B : Type} (x : Except Fault A) (f : A → Except Fault B) (fault : Fault)
    (refuses : x >>= f = .error fault) :
    x = .error fault ∨ ∃ a, x = .ok a ∧ f a = .error fault := by
  cases x with
  | error other =>
      cases refuses
      exact .inl rfl
  | ok a => exact .inr ⟨a, rfl, refuses⟩

theorem map_error_ok {Fault Fault' A : Type} (a : A) (f : Fault → Fault') :
    (Except.ok a).mapError f = .ok a := rfl

theorem map_error_gives {Fault Fault' A : Type} (x : Except Fault A) (f : Fault → Fault') (a : A)
    (gives : x.mapError f = .ok a) : x = .ok a := by
  cases x with
  | error fault => cases gives
  | ok b =>
      cases gives
      rfl

theorem map_ok_iff {Fault A B : Type} (x : Except Fault A) (f : A → B) (b : B) :
    x.map f = .ok b ↔ ∃ a, x = .ok a ∧ f a = b := by
  cases x <;> simp [Except.map]

theorem to_option_some {Fault A : Type} (x : Except Fault A) (a : A) :
    x.toOption = some a ↔ x = .ok a := by
  cases x <;> simp [Except.toOption]

def refusal {Fault A : Type} : Except Fault A → Option Fault
  | .error fault => some fault
  | .ok _ => none

theorem refusal_some {Fault A : Type} (x : Except Fault A) (fault : Fault) :
    refusal x = some fault ↔ x = .error fault := by
  cases x <;> simp [refusal]

theorem refusal_map_error {Fault Fault' A : Type} (x : Except Fault A) (f : Fault → Fault') :
    refusal (x.mapError f) = (refusal x).map f := by
  cases x <;> rfl

theorem refusal_pure {Fault A B : Type} (x : Except Fault A) (f : A → B) :
    refusal (x >>= fun a => pure (f a)) = refusal x := by
  cases x <;> rfl

theorem refusal_bind {Fault A B : Type} (x : Except Fault A) (f : A → Except Fault B)
    (later : Option Fault) (behind : ∀ a, x = .ok a → refusal (f a) = later) :
    refusal (x >>= f) = (refusal x).or later := by
  cases x with
  | error fault => rfl
  | ok a => exact behind a rfl

end ArithTemplate
