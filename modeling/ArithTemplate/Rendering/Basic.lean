import ArithTemplate.Rendering.Event
import ArithTemplate.Rendering.Layout
import ArithTemplate.Rendering.Sink

set_option autoImplicit false

/-!
Rendering: each placeholder gives way to the text of its value. A placeholder that fails is left
out and reported; output beyond the capacity is cut, and nothing after the cut is looked at.
-/

namespace ArithTemplate

structure Settings where
  capacity : Nat := 512
  strictness : Strictness := .strict
deriving DecidableEq, Repr

structure Rendering where
  text : Text
  truncated : Bool
  issues : List Issue
  events : List Event
deriving DecidableEq, Repr

namespace Rendering

def fill (strictness : Strictness) (body : Text) : Except Cause Text × List Event :=
  let placeholder := Placeholder.ofBody body
  match Formula.read strictness placeholder.formula with
  | .error misfit => (.error (.formula misfit), [])
  | .ok reading =>
      match reading.formula.evaluate with
      | .error e => (.error (.operand e), [])
      | .ok value =>
          let events := [.evaluated reading.formula value, .released reading.release]
          match placeholder.pattern with
          | none => (.ok value.text, events)
          | some pattern =>
              match Pattern.read pattern with
              | .error misfit => (.error (.pattern misfit), events)
              | .ok pattern => (.ok (pattern.render value), events)

-- What is left to say once nothing more is written. A cut is reported at `offset`, the start of
-- the part it fell into.
def finish (sink : Sink) (offset : Nat) : Rendering :=
  if sink.full then
    ⟨sink.text, true, [⟨offset, .overflow sink.capacity⟩], [.overflow sink.capacity]⟩
  else ⟨sink.text, false, [], []⟩

def after (issues : List Issue) (events : List Event) (r : Rendering) : Rendering :=
  { r with issues := issues ++ r.issues, events := events ++ r.events }

-- The text after the last placeholder. A brace that stays open is an issue; strict rendering
-- keeps it and what follows it, lenient rendering drops both.
def close (strictness : Strictness) (trailing : Text) (unclosed : Option Text) (offset : Nat)
    (sink : Sink) : Rendering :=
  let written := sink.push trailing
  match unclosed with
  | none => finish written offset
  | some tail =>
      if written.full then finish written offset
      else
        let opening := offset + Text.bytes trailing
        let kept :=
          match strictness with
          | .strict => written.push ('{' :: tail)
          | .lenient => written
        (finish kept offset).after [⟨opening, .unclosed opening⟩] [.unclosed opening]

def write (strictness : Strictness) (last : Nat → Sink → Rendering) :
    List Slot → Nat → Sink → Rendering
  | [], offset, sink => last offset sink
  | slot :: rest, offset, sink =>
      let written := sink.push slot.literal
      if written.full then finish written offset
      else
        let opening := offset + Text.bytes slot.literal
        let next := opening + Text.bytes slot.body + 2
        match fill strictness slot.body with
        | (.error cause, events) =>
            (write strictness last rest next written).after [⟨opening, cause⟩]
              (events ++ [.skipped ⟨opening, cause⟩])
        | (.ok text, events) =>
            let filled := written.push text
            if filled.full then (finish filled offset).after [] events
            else (write strictness last rest next filled).after [] events

end Rendering

def render (settings : Settings) (s : Text) : Rendering :=
  let layout := Layout.ofText s
  Rendering.write settings.strictness
    (Rendering.close settings.strictness layout.trailing layout.unclosed)
    layout.slots 0 (Sink.empty settings.capacity)

end ArithTemplate
