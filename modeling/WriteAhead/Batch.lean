import WriteAhead.Simulation

/-!
# A batch of writes

A batch requests a number of writes from a journal on a simulated device, one after the other; their
ids go around the slots of the journal. It waits until every write is drained, sums up what the
stages did and shuts the journal down.

The thread that does this is one more thread of the simulation: `Batch.step` says what an `Action`
of any of them does, and `Batch.run` is one way to the end.
-/

namespace WriteAhead

/-- What a batch consists of. -/
structure Plan where
  /-- How many writes are requested. -/
  writes : Nat := 16
  /-- How many writes each stage queue holds. -/
  bufferSize : Nat := 8
  /-- How many slots the journal has. -/
  maxRequests : Nat := 64
  /-- How long every operation takes. -/
  latency : Span := ⟨0⟩
  /-- How long the first journal txe takes instead, if that is said. -/
  slowTxe? : Option Span := none
  deriving DecidableEq, Repr

namespace Plan

/-- The configuration of the journal. -/
def config (p : Plan) : Config := { bufferSize := p.bufferSize, maxRequests := p.maxRequests }

/-- The device of the journal. -/
def device (p : Plan) : Device :=
  Device.create p.latency (p.slowTxe?.toList.map (Operation.journalTxe, ·)) []

/-- The id of a numbered write. -/
def idOf (p : Plan) (i : Nat) : WriteId := i % p.maxRequests

end Plan

namespace Batch

/-- Why a batch fails. -/
inductive Failure where
  /-- The journal could not be started. -/
  | start (e : JournalError)
  /-- A write was refused. -/
  | request (id : WriteId) (e : JournalError)
  deriving DecidableEq, Repr

/-- What failed, and why. -/
def Failure.lines : Failure → List String
  | .start e => ["failed to start journal", "", "Caused by:", "    " ++ e.message]
  | .request id e => [s!"failed to submit write {id}", "", "Caused by:", "    " ++ e.message]

/-- What the thread of a batch does next. -/
inductive Point where
  /-- Requests the write of this number, or waits for all writes if there are no more. -/
  | requesting (i : Nat)
  /-- Waits for the request of this number to return. -/
  | awaitingAnswer (i : Nat)
  /-- Waits for every write to be drained. -/
  | draining
  /-- Waits for the end of the shutdown. -/
  | closing (f : Option Failure)
  | ended (f : Option Failure)
  deriving DecidableEq, Repr

/-- Something that happens in a batch. -/
inductive Event where
  /-- A write is about to be requested. -/
  | requesting (id : WriteId)
  | simulation (e : Simulation.Event)
  /-- The sum of a stage: the writes it advanced and the producers that waited for it. -/
  | stageTotal (s : Stage) (processed stalls : Nat)
  /-- The sum of the batch: the writes requested and how long they took. -/
  | total (writes : Nat) (elapsed : Span)
  deriving DecidableEq, Repr

namespace Event

/-- The write of which the client is told. -/
def notified? : Event → Option WriteId
  | .simulation (.journal e) => e.notified?
  | _ => none

/-- A line of the batch itself. -/
def said (message : String) : Log.Line := ⟨.info, .driver, message⟩

/-- The lines that an event writes to the log. The client writes a line for each write that it is
told of. -/
def lines : Event → List Log.Line
  | .requesting id => [said s!"request write {id}"]
  | .simulation (.journal (.notified id)) => [said s!"write complete {id}"]
  | .simulation e => e.lines
  | .stageTotal s processed stalls =>
    [said s!"{s.name} stage: {processed} writes, {stalls} producer stalls"]
  | .total writes elapsed => [said s!"{writes} writes checkpointed in {elapsed.text}"]

end Event

end Batch

/-- A batch that runs. -/
structure Batch where
  plan : Plan
  simulation : Simulation
  point : Batch.Point := .requesting 0
  deriving DecidableEq, Repr

namespace Batch

/-- What a step leaves behind. -/
abbrev Step := Batch × List Event

/-- Starts the journal of a batch. -/
def start (p : Plan) : Except JournalError Step :=
  (Journal.start p.config).map fun (journal, events) =>
    ({ plan := p, simulation := { journal, device := p.device } },
      events.map fun e => .simulation (.journal e))

/-- Something happens in the simulation. -/
def world (b : Batch) (a : Simulation.Action) : Option Step :=
  (b.simulation.step a).map fun (simulation, events) =>
    ({ b with simulation }, events.map .simulation)

/-- The thread of the batch acts on the journal and goes on to another point. -/
def enter (b : Batch) (a : Journal.Action) (point : Point) (said : List Event) : Option Step :=
  (b.world (.journal a)).map fun (b, events) => ({ b with point }, said ++ events)

/-- The number of the call into the journal that the batch is in. -/
def call? (b : Batch) : Option Nat :=
  match b.point with
  | .awaitingAnswer i => some i
  | .draining => some b.plan.writes
  | .requesting _ | .closing _ | .ended _ => none

/-- What the call into the journal answered, once it has returned: why it was refused or none. -/
def answer? (b : Batch) : Option (Option JournalError) :=
  b.call?.bind fun k =>
    let j := b.simulation.journal
    if j.hasReturned k then
      j.callers[k]?.map fun
        | .submitter _ _ answers => answers.head?.join
        | .drainer _ => none
    else none

/-- The sums of a batch that is done. -/
def totals (b : Batch) : List Event :=
  let j := b.simulation.journal
  (Stage.all.map fun s => .stageTotal s (j.processed s) (j.queue s).pushBlocked) ++
    [.total b.plan.writes ⟨b.simulation.now⟩]

/-- The next step of the batch's own thread outside of the journal. -/
def ownStep (b : Batch) : Option Step :=
  match b.point with
  | .requesting i =>
    let id := b.plan.idOf i
    -- The line comes before the request, whatever comes of it.
    if i < b.plan.writes then b.enter (.submit [id]) (.awaitingAnswer i) [.requesting id]
    else b.enter .awaitAll .draining []
  | .awaitingAnswer i =>
    b.answer?.bind fun
      | none => some ({ b with point := .requesting (i + 1) }, [])
      | some e => b.enter .shutDown (.closing (some (.request (b.plan.idOf i) e))) []
  -- The sums are taken while the workers are still there.
  | .draining => b.answer?.bind fun _ => b.enter .shutDown (.closing none) b.totals
  | .closing f =>
    if b.simulation.journal.isShutDown then some ({ b with point := .ended f }, []) else none
  | .ended _ => none

/-- Something that can happen while a batch runs. -/
inductive Action where
  /-- The batch's own thread goes on, outside of the journal. -/
  | own
  /-- A thread goes on inside the journal. -/
  | act (a : Actor)
  /-- A thread goes on inside the device. -/
  | device (th : Device.Thread)
  /-- The timer takes what is due. -/
  | fire
  /-- Time passes, up to an instant. -/
  | pass (instant : Device.Instant)
  deriving DecidableEq, Repr

/-- What an action does to a batch and the events that it yields; none if it is not possible. -/
def step (b : Batch) : Action → Option Step
  | .own => b.ownStep
  | .act a => b.world (.journal (.act a))
  | .device th => b.world (.device th)
  | .fire => b.world .fire
  | .pass instant => b.world (.pass instant)

/-! ## Running to the end -/

/-- Everything that may happen next, in the order in which it is tried: what goes on inside the
device, then the workers, the batch's own thread, the shutdown and the timer. -/
def moves (b : Batch) : List Action :=
  b.simulation.device.calls.map (.device ·.1) ++ Stage.all.map (.act <| .worker ·) ++
    b.call?.toList.map (.act <| .caller ·) ++ [.own, .act .closer, .fire]

/-- The next step of the first that can go on, its events with their instant. If nobody can, time
passes until the timer has something to do. -/
def next (b : Batch) : Option (Batch × List (Device.Instant × Event)) :=
  let step? := match b.moves.findSome? b.step with
    | some step => some step
    | none => b.simulation.nextInstant?.bind fun t => b.step (.pass t)
  step?.map fun (b', events) => (b', events.map (b.simulation.now, ·))

/-- A bound on the steps to the end: each write takes less than 256. -/
def workLeft (p : Plan) : Nat := 256 * (p.writes + 1)

/-- Runs a batch to its end: what happened, when, and why it failed if it did. -/
def run (p : Plan) : List (Device.Instant × Event) × Option Failure :=
  match start p with
  | .error e => ([], some (.start e))
  | .ok (b, events) =>
    let (b, later) := runToRest next (workLeft p) b
    let failure? := match b.point with
      | .ended f | .closing f => f
      | _ => none
    (events.map (0, ·) ++ later, failure?)

end Batch

end WriteAhead
