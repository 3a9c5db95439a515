import WriteAhead.Device.Basic
import WriteAhead.Journal.Rest

/-!
# A journal on a simulated device

A `Simulation` is a journal together with a simulated device and a clock. When the two are wired to
each other, a worker that hands a token over goes through the device's call before it goes on; else
tokens come into the device only when an operator issues them. A token that a thread inside the
device gives back completes its operation in the journal. `step` says what an `Action` does, and
`settle` is one way to rest, which may include waiting for the timer.
-/

namespace WriteAhead

/-- A journal, a simulated device and a clock. -/
structure Simulation where
  journal : Journal
  device : Device
  /-- Whether the workers issue their operations to the device. -/
  wired : Bool := true
  now : Device.Instant := 0
  deriving DecidableEq, Repr

namespace Simulation

/-- Something that happens in a simulation. -/
inductive Event where
  | journal (e : WriteAhead.Event)
  | device (n : Device.Notice)
  deriving DecidableEq, Repr

namespace Event

/-- The lines that an event writes to the log. -/
def lines : Event → List Log.Line
  | .journal e => e.lines
  | .device n => [n.line]

/-- The event of the journal, if it is one. -/
def journal? : Event → Option WriteAhead.Event
  | .journal e => some e
  | .device _ => none

end Event

/-- What a step leaves behind. -/
abbrev Step := Simulation × List Event

/-- The token that an event of the journal hands over, and the stage whose worker does it. -/
def handed? : WriteAhead.Event → Option (Stage × Token)
  | .handed s t => some (s, t)
  | _ => none

/-- The device takes the tokens that were handed over. -/
def accept (d : Device) (events : List WriteAhead.Event) : Device :=
  (events.filterMap handed?).foldl (fun d (s, t) => d.issue (.worker s) t) d

/-- A step of the journal. -/
def ofJournal (s : Simulation) (step : Journal.Step) : Step :=
  let (journal, events) := step
  ({ s with journal, device := if s.wired then accept s.device events else s.device },
    events.map .journal)

/-- A thread panics while it issues a token: the token is dropped, and a worker has come to its
end. -/
def lose (j : Journal) (th : Device.Thread) (t : Token) : Journal :=
  let j := { j with outstanding := j.outstanding.erase t }
  match th with
  | .worker st => j.setPhase st (.crashed .device)
  | .operator _ | .timer => j

/-- The next critical section of a thread inside the device. -/
def deviceStep (s : Simulation) (th : Device.Thread) : Option Step :=
  (s.device.step s.now th).map fun
    | (device, notices, none) =>
      -- Judged by the device as it was before the section.
      match s.device.losing? s.now th with
      | none => ({ s with device }, notices.map .device)
      | some t =>
        ({ s with journal := lose s.journal th t, device },
          notices.map .device ++ [.journal (.dropped t)])
    -- The token is out of the device: the table hears of it in the same section.
    | (device, notices, some t) =>
      let (journal, v) := s.journal.complete t
      ({ s with journal, device },
        notices.map .device ++ [.journal (.reported t.writeId t.operation (some t.generation) v)])

/-- Something that can happen to a simulation. -/
inductive Action where
  /-- Something happens to the journal. -/
  | journal (a : Journal.Action)
  /-- A thread inside the device goes on. -/
  | device (th : Device.Thread)
  /-- The timer takes what is due. -/
  | fire
  /-- An operation is put on hold. -/
  | hold (op : Operation) (id : WriteId)
  /-- An operator releases every held operation. -/
  | release (n : Nat)
  /-- An operator issues a token to the device. -/
  | issue (n : Nat) (t : Token)
  /-- Time passes, up to an instant. -/
  | pass (instant : Device.Instant)
  deriving DecidableEq, Repr

/-- Whether something may happen to the journal while the device is as it is: a worker inside the
device does not go on outside, and tokens that the device holds come back through it alone. -/
def admits (s : Simulation) : Journal.Action → Bool
  | .act (.worker st) => (s.device.call? (.worker st)).isNone
  | .complete t | .drop t => t ∉ s.device.tokens
  | .devicePanic _ => !s.wired
  | _ => true

/-- What an action does to a simulation and the events that it yields; none if it is impossible. -/
def step (s : Simulation) : Action → Option Step
  | .journal a => if s.admits a then (s.journal.step a).map s.ofJournal else none
  | .device th => s.deviceStep th
  | .fire => (s.device.fire s.now).map fun device => ({ s with device }, [])
  | .hold op id => some ({ s with device := s.device.hold op id }, [])
  | .release n =>
    if (s.device.call? (.operator n)).isNone then
      some ({ s with device := s.device.release (.operator n) }, [])
    else none
  | .issue n t =>
    if (s.device.call? (.operator n)).isNone ∧ t ∈ s.journal.outstanding ∧ t ∉ s.device.tokens then
      some ({ s with device := s.device.issue (.operator n) t }, [])
    else none
  | .pass instant => if s.now ≤ instant then some ({ s with now := instant }, []) else none

/-! ## Running to rest -/

/-- Everything that may happen next by itself, in the order in which it is tried: what goes on
inside the device, then the journal, then the timer. -/
def moves (s : Simulation) (panicsOn : List WriteId) : List Action :=
  s.device.calls.map (.device ·.1) ++
    s.journal.actors.map (fun a => .journal (s.journal.actionOf panicsOn a)) ++ [.fire]

/-- The instant until which a patient simulation waits when nothing else can happen. -/
def nextInstant? (s : Simulation) : Option Device.Instant :=
  (s.device.timer?.bind (·.earliest?)).filter (s.now < ·)

/-- The next step of the first that can go on. Waiting for the timer comes last, and only if the
simulation is patient. -/
def next (panicsOn : List WriteId) (patient : Bool) (s : Simulation) : Option Step :=
  match (s.moves panicsOn).findSome? s.step with
  | some step => some step
  | none => if patient then s.nextInstant?.bind fun t => s.step (.pass t) else none

/-- A bound on the steps to rest: each step of the journal may bring a token into the device, which
takes less than 16 to leave it. -/
def workLeft (s : Simulation) : Nat := 16 * (s.journal.workLeft + s.device.tokens.length + 1)

/-- Lets everything go on until the simulation is at rest. -/
def settle (panicsOn : List WriteId) (patient : Bool) (s : Simulation) : Step :=
  runToRest (next panicsOn patient) s.workLeft s

end Simulation

end WriteAhead
