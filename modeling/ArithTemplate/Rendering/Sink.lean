import ArithTemplate.Text.Basic

set_option autoImplicit false

/-!
Output bounded by a number of bytes. What does not fit is cut between characters, and nothing is
taken after a cut.
-/

namespace ArithTemplate

structure Sink where
  capacity : Nat
  text : Text
  full : Bool
deriving DecidableEq, Repr

namespace Sink

def empty (capacity : Nat) : Sink := ⟨capacity, [], false⟩

-- Takes as much of `s` as fits, and tells whether that was all of it; the sink is full once anything
-- was cut.
def offer (sink : Sink) (s : Text) : Bool × Sink :=
  if sink.full then (false, sink)
  else
    let room := sink.capacity - Text.bytes sink.text
    if Text.bytes s ≤ room then (true, { sink with text := sink.text ++ s })
    else (false, { sink with text := sink.text ++ (Text.backFrom s room).1, full := true })

def push (sink : Sink) (s : Text) : Sink := (sink.offer s).2

theorem offer_full (sink : Sink) (s : Text) (h : sink.full = true) : sink.offer s = (false, sink) :=
  if_pos h

theorem push_full (sink : Sink) (s : Text) (h : sink.full = true) : sink.push s = sink := by
  rw [push, offer_full sink s h]

-- The answer is what the sink shows behind the push.
theorem offer_answer (sink : Sink) (s : Text) : (sink.offer s).1 = !(sink.push s).full := by
  cases full : sink.full with
  | true => rw [push, offer_full sink s full, full, Bool.not_true]
  | false =>
      simp only [push, offer, full, Bool.false_eq_true, if_false]
      split <;> simp

end Sink
end ArithTemplate
