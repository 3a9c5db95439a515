import WriteAhead.Journal.State

/-!
# Steps of a journal

Every thread of control advances by critical sections, and between two of them any other may take
its own. `Journal.step` says what an `Action` does to a journal and which events it yields, or that
it is not possible: an actor takes its next critical section, a new call comes in, the device
completes or drops a token, an operation is reported by write id, or a call into the device or the
client panics. A run of a journal is any sequence of possible actions.

A worker takes a write from its queue, puts each operation of its stage on record and hands its
token to the device, waits for the join, and passes the write on; the last one tells the client and
marks the checkpoint as done. A request claims the slot of its write and puts it into the first
queue. A shutdown closes the queues, shuts the table down and waits for the workers.
-/

namespace WriteAhead.Journal

/-- What an actor's critical section leaves behind. -/
abbrev Step := Journal × List Event

/-! ## Notifications -/

/-- An actor sends a notification that it owes to one of the queues. It wakes whoever has slept
longest there (`Waiters.notifyOne`). -/
def deliver? (j : Journal) (a : Actor) : Option Step :=
  Stage.all.findSome? fun s => ((j.queues.get s).deliver a).map fun m => (j.setQueue s m, [])

/-! ## Workers -/

/-- A worker has been answered by its own queue, or fell asleep there. -/
def afterPop (j : Journal) (s : Stage) : Option (Queue.Reply WriteId) → Step
  | some (.item id) => (j.setPhase s (.issuing id s.operations), [])
  -- The queue is closed and empty.
  | some _ => (j.setPhase s .stopped, [.workerStopped s])
  | none => (j.setPhase s .awaitingItem, [])

/-- A worker puts an operation of a write on record. -/
def record (j : Journal) (s : Stage) (id : WriteId) (op : Operation) (left : List Operation) :
    Step :=
  match j.table.recordIssue id with
  | .ok (m, generation) =>
    let t : Token := ⟨id, op, generation⟩
    ({ j with table := m }.setPhase s (.handing t left), [.issued s t])
  | .error f => (j.setPhase s (.crashed (.fault f)), [])

/-- A worker gives up on a write. -/
def stopOn (j : Journal) (s : Stage) (id : WriteId) (e : JournalError) : Step :=
  (j.setPhase s .stopped, [.workerStopping s id e, .workerStopped s])

/-- A write has passed the join of a stage. -/
def advance (j : Journal) (s : Stage) (id : WriteId) : Step :=
  let w := j.workers.get s
  let (phase, event) := match s.next with
    | some t => (Phase.pushing id, Event.advanced s t id)
    | none => (Phase.notifying id, Event.persisted id)
  ({ j with workers := j.workers.set s { phase, processed := w.processed + 1 } }, [event])

/-- A worker has been answered about the join of its stage, or fell asleep. -/
def afterJoin (j : Journal) (s : Stage) (id : WriteId) : Option Table.Reply → Step
  -- The table was shut down before the join held.
  | some (.refused e) => j.stopOn s id e
  | some (.failed f) => (j.setPhase s (.crashed (.fault f)), [])
  | some _ => j.advance s id
  | none => (j.setPhase s (.awaitingJoin id), [])

/-- A worker has been answered by the queue of the next stage `t`, or fell asleep there. -/
def afterPush (j : Journal) (s t : Stage) (id : WriteId) (first : Bool) :
    Option (Queue.Reply WriteId) → Step
  | some .pushed => (j.setPhase s .popping, [])
  -- The queue is closed: the write goes no further, and its slot stays in use.
  | some _ => j.stopOn s id .shutDown
  | none =>
    (j.setPhase s (.awaitingRoom id), if first then [.queueFull t j.config.bufferSize] else [])

/-- The client is told that a write is complete. -/
def notify (j : Journal) (s : Stage) (id : WriteId) (panics : Bool) : Step :=
  (j.setPhase s (if panics then .crashed .client else .marking id), [.notified id])

/-- The last worker marks the checkpoint of a write as done. -/
def mark (j : Journal) (s : Stage) (id : WriteId) : Step :=
  match j.table.markCheckpointDone id with
  | .ok (m, released) => ({ j with table := m }.setPhase s .popping, [.checkpointed id released])
  | .error f => (j.setPhase s (.crashed (.fault f)), [])

/-- A worker hands a token to the device. -/
def hand (j : Journal) (s : Stage) (t : Token) (next : Phase) : Step :=
  ({ j with outstanding := j.outstanding ++ [t] }.setPhase s next, [.handed s t])

/-- The next critical section of a worker. -/
def workerStep (j : Journal) (s : Stage) : Option Step :=
  let a := Actor.worker s
  match (j.workers.get s).phase with
  | .popping =>
    let (m, r) := (j.queues.get s).enter a .pop
    some ((j.setQueue s m).afterPop s r)
  | .awaitingItem => ((j.queues.get s).recheck a).map fun (m, r) => (j.setQueue s m).afterPop s r
  | .issuing id (op :: left) => some (j.record s id op left)
  | .issuing id [] =>
    let (m, r) := j.table.enter a (.join id s)
    some ({ j with table := m }.afterJoin s id r)
  | .handing t left => some (j.hand s t (.issuing t.writeId left))
  | .awaitingJoin id =>
    (j.table.recheck a).map fun (m, r) => { j with table := m }.afterJoin s id r
  | .pushing id =>
    s.next.map fun t =>
      let (m, r) := (j.queues.get t).enter a (.push id)
      (j.setQueue t m).afterPush s t id true r
  | .awaitingRoom id =>
    s.next.bind fun t =>
      ((j.queues.get t).recheck a).map fun (m, r) => (j.setQueue t m).afterPush s t id false r
  | .notifying id => some (j.notify s id false)
  | .marking id => some (j.mark s id)
  | .stopped | .crashed _ => none

/-! ## Callers from outside -/

/-- A submitter has been answered about the slot of a write, or fell asleep. -/
def afterAcquire (j : Journal) (k : Nat) (id : WriteId) (left : List WriteId)
    (answers : List (Option JournalError)) : Option Table.Reply → Step
  | some (.acquired generation) =>
    (j.setCaller k (.submitter (.admitted id) left answers), [.acquired id generation])
  | some (.refused e) =>
    (j.setCaller k (.submitter .between left (answers ++ [some e])), [.refused id e])
  -- A claim is answered in no other way (`Table.Monitor.attempt`).
  | some _ => (j, [])
  | none => (j.setCaller k (.submitter (.awaitingSlot id) left answers), [.slotBusy id])

/-- A submitter has been answered by the first queue, or fell asleep there. -/
def afterSubmit (j : Journal) (k : Nat) (id : WriteId) (left : List WriteId)
    (answers : List (Option JournalError)) (first : Bool) : Option (Queue.Reply WriteId) → Step
  | some .pushed =>
    (j.setCaller k (.submitter .between left (answers ++ [none])), [.accepted id])
  -- The queue is closed; the slot stays with the write that was refused.
  | some _ =>
    (j.setCaller k (.submitter .between left (answers ++ [some .shutDown])),
      [.refused id .shutDown])
  | none =>
    (j.setCaller k (.submitter (.awaitingRoom id) left answers),
      if first then [.queueFull .metadata j.config.bufferSize] else [])

/-- A caller that waits for all writes has been answered, or fell asleep. -/
def afterDrain (j : Journal) (k : Nat) : Option Table.Reply → Step
  | some _ => (j.setCaller k (.drainer .returned), [])
  | none => (j.setCaller k (.drainer .awaiting), [])

/-- The next critical section of a caller. -/
def callerStep (j : Journal) (k : Nat) : Option Step :=
  let a := Actor.caller k
  j.callers[k]?.bind fun
    | .submitter .between [] _ => none
    | .submitter .between (id :: left) answers =>
      let (m, r) := j.table.enter a (.slot id)
      some ({ j with table := m }.afterAcquire k id left answers r)
    | .submitter (.awaitingSlot id) left answers =>
      (j.table.recheck a).map fun (m, r) =>
        { j with table := m }.afterAcquire k id left answers r
    | .submitter (.admitted id) left answers =>
      let (m, r) := (j.queues.get .metadata).enter a (.push id)
      some ((j.setQueue .metadata m).afterSubmit k id left answers true r)
    | .submitter (.awaitingRoom id) left answers =>
      ((j.queues.get .metadata).recheck a).map fun (m, r) =>
        (j.setQueue .metadata m).afterSubmit k id left answers false r
    | .drainer .entering =>
      let (m, r) := j.table.enter a .drain
      some ({ j with table := m }.afterDrain k r)
    | .drainer .awaiting =>
      (j.table.recheck a).map fun (m, r) => { j with table := m }.afterDrain k r
    | .drainer .returned => none

/-! ## Shutdown -/

/-- The worker of a stage is gone: the shutdown turns to the next. -/
def joinNext (j : Journal) (s : Stage) (events : List Event) : Step :=
  match s.next with
  | some t => ({ j with closing := .joining t }, events)
  | none => ({ j with closing := .done }, events ++ [.shutDown])

/-- The next critical section of a shutdown. -/
def closerStep (j : Journal) : Option Step :=
  match j.closing with
  | .open | .done => none
  | .closing s =>
    let closing := match s.next with
      | some t => Closing.closing t
      | none => .aborting
    some ({ j.setQueue s ((j.queues.get s).close .closer) with closing }, [])
  | .aborting => some ({ j with table := j.table.shutDown, closing := .joining .metadata }, [])
  | .joining s =>
    -- Nothing to do as long as the worker goes on.
    match (j.workers.get s).phase with
    | .stopped => some (j.joinNext s [])
    | .crashed _ => some (j.joinNext s [.workerCrashed s])
    | _ => none

/-! ## Actions -/

/-- An actor takes its next critical section, or sends a notification that it still owes. -/
def actorStep (j : Journal) (a : Actor) : Option Step :=
  -- An actor does nothing else before it has sent what it owes.
  match j.deliver? a with
  | some step => some step
  | none =>
    match a with
    | .worker s => j.workerStep s
    | .caller k => j.callerStep k
    | .closer => j.closerStep

/-- Whether new calls may come in: a shutdown has the journal to itself. -/
def admitsCalls (j : Journal) : Bool := j.closing == .open || j.closing == .done

/-- A new caller comes in. -/
def call (j : Journal) (c : Caller) : Journal := { j with callers := j.callers ++ [c] }

/-- An operation is reported complete. -/
def report (j : Journal) (id : WriteId) (op : Operation) (generation : Option Generation) :
    Journal × Table.Verdict :=
  let (m, v) := j.table.recordCompletion id op generation
  ({ j with table := m }, v)

/-- The device gives a token back: its operation is complete. -/
def complete (j : Journal) (t : Token) : Journal × Table.Verdict :=
  { j with outstanding := j.outstanding.erase t }.report t.writeId t.operation (some t.generation)

/-- Something that can happen to a journal. -/
inductive Action where
  /-- An actor goes on. -/
  | act (a : Actor)
  /-- A caller comes in that requests writes one after the other. -/
  | submit (ids : List WriteId)
  /-- A caller comes in that waits for all writes. -/
  | awaitAll
  /-- The device completes a token. -/
  | complete (t : Token)
  /-- The device drops a token. -/
  | drop (t : Token)
  /-- An operation is reported complete for whoever occupies a slot. -/
  | report (id : WriteId) (op : Operation)
  /-- The journal is to be shut down. -/
  | shutDown
  /-- The client panics when it is told of a write. -/
  | clientPanic
  /-- The device panics when the worker of a stage hands it a token. -/
  | devicePanic (s : Stage)
  deriving DecidableEq, Repr

/-- What an action does to a journal and the events that it yields; none if it is not possible. -/
def step (j : Journal) : Action → Option Step
  | .act a => j.actorStep a
  | .submit ids => if j.admitsCalls then some (j.call (.submitter .between ids []), []) else none
  | .awaitAll => if j.admitsCalls then some (j.call (.drainer .entering), []) else none
  | .complete t =>
    if t ∈ j.outstanding then
      let (j', v) := j.complete t
      some (j', [.reported t.writeId t.operation (some t.generation) v])
    else none
  | .drop t =>
    if t ∈ j.outstanding then
      some ({ j with outstanding := j.outstanding.erase t }, [.dropped t])
    else none
  | .report id op =>
    let (j', v) := j.report id op none
    some (j', [.reported id op none v])
  | .shutDown =>
    -- A shutdown has the journal to itself, and a second one changes nothing.
    if j.isCalled then none
    else if j.closing = .open then some ({ j with closing := .closing .metadata }, [])
    else if j.closing = .done then some (j, [])
    else none
  | .clientPanic =>
    match (j.workers.get .checkpoint).phase with
    | .notifying id => some (j.notify .checkpoint id true)
    | _ => none
  | .devicePanic s =>
    -- The device keeps the token; the operation stays on record.
    match (j.workers.get s).phase with
    | .handing t _ => some (j.hand s t (.crashed .device))
    | _ => none

end WriteAhead.Journal
