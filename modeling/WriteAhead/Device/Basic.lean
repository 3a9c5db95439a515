import WriteAhead.Device.Timer

/-!
# The simulated device

The device writes nothing; it only decides when each operation that it is given completes:

* at once, on the thread that issues it;
* after the latency of the device, or after a delay registered for the first issue of its operation;
* when held operations are released, if it is on hold.

`issue`, `release` and `fire` begin a call into the device on some thread, and `step` takes the next
critical section of a thread inside it. Only one step of a call gives a token back. Every issue and
every completion is noted in the order in which it happens.

Instants and spans are natural numbers, so that time has no end here. A clock does: `last?` is the
last instant that it can name. An issue whose deadline is later panics, and its token goes with it
(`losing?`). Without `last?` the clock is an ideal one.
-/

namespace WriteAhead

/-- Whether an operation was issued to a device or completed by it. -/
inductive IoKind where
  | issued
  | completed
  deriving DecidableEq, Repr

/-- An entry in the notes of a device. -/
structure IoEvent where
  kind : IoKind
  writeId : WriteId
  operation : Operation
  deriving DecidableEq, Repr

namespace Device

/-- A thread inside the device. -/
inductive Thread where
  /-- The worker of a stage, which issues. -/
  | worker (s : Stage)
  /-- Someone else, by number. -/
  | operator (n : Nat)
  /-- The timer's own thread. -/
  | timer
  deriving DecidableEq, Repr

/-- How far a thread's call has come: what it does next. -/
inductive Call where
  /-- Looks whether the issued token is on hold. -/
  | testing (t : Token)
  /-- Parks a token that is on hold. -/
  | parking (t : Token)
  /-- Chooses the delay of a token. -/
  | timing (t : Token)
  /-- Schedules a token. -/
  | scheduling (t : Token) (delay : Span)
  /-- Notes a token as completed, and goes on with the others after it; they may have been held. -/
  | finishing (t : Token) (others : List Token) (released : Bool)
  /-- Gives a token back that is noted as completed, and goes on with the others after it. -/
  | reporting (t : Token) (others : List Token) (released : Bool)
  /-- Lifts every hold. -/
  | lifting
  /-- Takes the parked tokens, to complete them. -/
  | taking
  deriving DecidableEq, Repr

/-- The tokens in the hands of a call. -/
def Call.tokens : Call → List Token
  | .testing t | .parking t | .timing t | .scheduling t _ => [t]
  | .finishing t others _ | .reporting t others _ => t :: others
  | .lifting | .taking => []

end Device

/-- A simulated block device. -/
structure Device where
  /-- How long an operation takes, unless something else is said; zero for at once. -/
  latency : Span := ⟨0⟩
  /-- Delays for the next issue of an operation, each used once. -/
  delays : List (Operation × Span) := []
  /-- The operations on hold. -/
  holds : List (Operation × WriteId) := []
  /-- The parked tokens, in the order in which they were parked. -/
  held : List Token := []
  /-- The timer, if any operation is ever delayed. -/
  timer? : Option Device.Timer := none
  /-- The last instant that the clock can name; none if it can name every instant. -/
  last? : Option Device.Instant := none
  /-- Issues and completions, the last one first. -/
  notes : List IoEvent := []
  /-- The calls into the device that have not returned, each with its thread. -/
  calls : List (Device.Thread × Device.Call) := []
  deriving DecidableEq, Repr

namespace Device

/-- A device with the given latency, delays and holds. -/
def create (latency : Span) (delays : List (Operation × Span))
    (holds : List (Operation × WriteId)) : Device :=
  let isTimed := !latency.isZero || delays.any (!·.2.isZero)
  { latency, delays, holds, timer? := if isTimed then some {} else none }

/-- A message of the device. -/
inductive Notice where
  /-- A token is parked. -/
  | holding (t : Token)
  /-- A token has a delay of its own. -/
  | slow (t : Token) (delay : Span)
  /-- A parked token is completed. -/
  | releasing (t : Token)
  deriving DecidableEq, Repr

/-- The notice in words. -/
def Notice.message : Notice → String
  | .holding t => s!"SIMULATION: holding {t.operation.name} {t.writeId}"
  | .slow t delay =>
    s!"SIMULATION: device is slow writing {t.operation.name} {t.writeId} ({delay.text})"
  | .releasing t => s!"SIMULATION: releasing {t.operation.name} {t.writeId}"

/-- The notice as a log line. -/
def Notice.line (n : Notice) : Log.Line := ⟨.info, .simulation, n.message⟩

/-! ## Views -/

/-- The number of tokens on the timer. -/
def scheduledCount (d : Device) : Nat := (d.timer?.map (·.pending.length)).getD 0

/-- Issues and completions in the order in which they happened. -/
def events (d : Device) : List IoEvent := d.notes.reverse

/-- How often an operation was issued for a write. -/
def issuedCount (d : Device) (id : WriteId) (op : Operation) : Nat :=
  d.notes.count ⟨.issued, id, op⟩

/-- The tokens that the device holds, on whatever thread or list. -/
def tokens (d : Device) : List Token :=
  d.calls.flatMap (·.2.tokens) ++ d.held ++
    ((d.timer?.map fun t => t.pending.map (·.token)).getD [])

/-- The call of a thread. -/
def call? (d : Device) (th : Thread) : Option Call := (d.calls.find? (·.1 = th)).map (·.2)

/-- The device in structured text. -/
def text (d : Device) : String :=
  Text.openRecord "SimulatedBlockDevice"
    [("latency", if d.latency.isZero then "None" else s!"Some({d.latency.text})"),
      ("held", toString d.held.length), ("scheduled", toString d.scheduledCount)]

/-! ## Calls -/

/-- Puts an operation on hold. -/
def hold (d : Device) (op : Operation) (id : WriteId) : Device :=
  if (op, id) ∈ d.holds then d else { d with holds := d.holds ++ [(op, id)] }

/-- Notes an issue or a completion. -/
def note (d : Device) (kind : IoKind) (t : Token) : Device :=
  { d with notes := ⟨kind, t.writeId, t.operation⟩ :: d.notes }

/-- A thread's call goes on to this point. -/
def goTo (d : Device) (th : Thread) (c : Call) : Device :=
  { d with calls := d.calls.map fun (t, c') => (t, if t = th then c else c') }

/-- A thread's call returns. -/
def leave (d : Device) (th : Thread) : Device :=
  { d with calls := d.calls.filter (·.1 ≠ th) }

/-- A thread goes on to complete tokens in order. -/
def finish (d : Device) (th : Thread) (ts : List Token) (released : Bool) : Device :=
  match ts with
  | t :: others => d.goTo th (.finishing t others released)
  | [] => d.leave th

/-- Issues a token to the device. -/
def issue (d : Device) (th : Thread) (t : Token) : Device :=
  let d := d.note .issued t
  { d with calls := d.calls ++ [(th, .testing t)] }

/-- Releases every held operation. -/
def release (d : Device) (th : Thread) : Device := { d with calls := d.calls ++ [(th, .lifting)] }

/-- The timer's thread takes what is due; none if nothing is, or if it is not done with the last. -/
def fire (d : Device) (now : Instant) : Option Device :=
  d.timer?.bind fun timer =>
    match d.call? .timer, timer.takeDue now with
    -- Until its call returns the timer's thread takes no more.
    | none, (t :: others, timer) =>
      some { d with
        timer? := some timer, calls := d.calls ++ [(.timer, .finishing t others false)] }
    | _, _ => none

/-- Removes an entry by putting the last one into its place. -/
def swapRemove {α : Type} (xs : List α) (i : Nat) : List α :=
  match xs.getLast? with
  | none => []
  | some last => (xs.set i last).dropLast

/-- Takes the first delay registered for an operation. -/
def takeDelay (d : Device) (op : Operation) : Option Span × Device :=
  match d.delays.findIdx? (·.1 = op) with
  | none => (none, d)
  | some i => (d.delays[i]?.map (·.2), { d with delays := swapRemove d.delays i })

/-- Chooses the delay of a token: one that is registered for its operation, else the latency. -/
def time (d : Device) (th : Thread) (t : Token) : Device × List Notice :=
  let (registered, d) := d.takeDelay t.operation
  let delay := registered.getD d.latency
  -- A delay of its own is told even if it is no delay.
  let notices := registered.toList.map (.slow t ·)
  -- Without a delay the thread that issues the token completes it before it returns.
  (if delay.isZero || d.timer?.isNone then d.finish th [t] false
    else d.goTo th (.scheduling t delay), notices)

/-- Whether the clock can name an instant. -/
def names (d : Device) (instant : Instant) : Bool := d.last?.all (instant ≤ ·)

/-- The token that the next critical section of a thread loses: the clock cannot name its deadline,
and the call that was to schedule it panics. -/
def losing? (d : Device) (now : Instant) (th : Thread) : Option Token :=
  match d.call? th with
  | some (.scheduling t delay) => if d.names (now + delay.micros) then none else some t
  | _ => none

/-- The next critical section of a thread inside the device: the messages, and the token that it
gives back, if it does. None if the thread is not inside. -/
def step (d : Device) (now : Instant) (th : Thread) :
    Option (Device × List Notice × Option Token) :=
  (d.call? th).map fun
    | .testing t =>
      if (t.operation, t.writeId) ∈ d.holds then (d.goTo th (.parking t), [.holding t], none)
      else (d.goTo th (.timing t), [], none)
    -- A hold that was lifted in between makes no difference any more.
    | .parking t => ({ d with held := d.held ++ [t] }.leave th, [], none)
    | .timing t =>
      let (d, notices) := d.time th t
      (d, notices, none)
    | .scheduling t delay =>
      if d.names (now + delay.micros) then
        let timer? := d.timer?.map (·.schedule (now + delay.micros) t)
        ({ d with timer? }.leave th, [], none)
      -- There is no such deadline: the thread unwinds out of the call, without its token.
      else (d.leave th, [], none)
    | .finishing t others released =>
      ((d.note .completed t).goTo th (.reporting t others released),
        if released then [.releasing t] else [], none)
    | .reporting t others released => (d.finish th others released, [], some t)
    | .lifting => ({ d with holds := [] }.goTo th .taking, [], none)
    | .taking => ({ d with held := [] }.finish th d.held true, [], none)

/-- The device is dropped: what is held is dropped with it, and what is scheduled is due at once. -/
def close (d : Device) : Device × List Token :=
  ({ d with held := [], timer? := d.timer?.map fun t => { t with closing := true } }, d.held)

end Device

end WriteAhead
