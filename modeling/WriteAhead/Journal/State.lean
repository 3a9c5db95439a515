import WriteAhead.Config
import WriteAhead.Journal.Event
import WriteAhead.Queue.Monitor
import WriteAhead.Table.Monitor

/-!
# The state of a journal

A `Journal` is a request table and one bounded queue and one worker for each stage, together with
the callers that are inside it and the tokens that its device holds. Every thread of control is an
`Actor`, and its phase says which critical section it takes next or at which it waits.
-/

namespace WriteAhead

/-- A thread of control in a journal. -/
inductive Actor where
  /-- The worker of a stage. -/
  | worker (s : Stage)
  /-- A caller from outside, by number. -/
  | caller (k : Nat)
  /-- The caller that shuts the journal down. -/
  | closer
  deriving DecidableEq, Repr, Inhabited

/-- Why a worker came to its end without stopping. -/
inductive Crash where
  /-- The client panicked when it was told of a write. -/
  | client
  /-- The device panicked when it was given a token. -/
  | device
  /-- The worker itself made a call that the table does not allow. -/
  | fault (f : Table.Fault)
  deriving DecidableEq, Repr

/-- What a worker does next. -/
inductive Phase where
  /-- Takes a write from its queue. -/
  | popping
  /-- Waits for a write in its queue. -/
  | awaitingItem
  /-- Puts the next operation on record, or waits for the join if none is left. -/
  | issuing (id : WriteId) (left : List Operation)
  /-- Gives a token to the device. -/
  | handing (t : Token) (left : List Operation)
  /-- Waits for the join of its stage. -/
  | awaitingJoin (id : WriteId)
  /-- Puts the write into the queue of the next stage. -/
  | pushing (id : WriteId)
  /-- Waits for room in the queue of the next stage. -/
  | awaitingRoom (id : WriteId)
  /-- Tells the client. -/
  | notifying (id : WriteId)
  /-- Marks the checkpoint of the write as done. -/
  | marking (id : WriteId)
  | stopped
  | crashed (c : Crash)
  deriving DecidableEq, Repr

/-- The write that a worker has taken and not passed on. -/
def Phase.held? : Phase → Option WriteId
  | .issuing id _ | .awaitingJoin id | .pushing id | .awaitingRoom id | .notifying id
  | .marking id => some id
  | .handing t _ => some t.writeId
  | .popping | .awaitingItem | .stopped | .crashed _ => none

/-- Whether a worker has come to its end. -/
def Phase.isOver : Phase → Bool
  | .stopped | .crashed _ => true
  | _ => false

/-- A worker. -/
structure Worker where
  phase : Phase := .popping
  /-- How many writes passed the join of the stage. A natural number, as the counters of `Table`. -/
  processed : Nat := 0
  deriving DecidableEq, Repr

/-- Where a request stands. -/
inductive Submission where
  /-- Between two requests. -/
  | between
  /-- Waits for the slot of its write. -/
  | awaitingSlot (id : WriteId)
  /-- Has the slot and brings the write to the first queue. -/
  | admitted (id : WriteId)
  /-- Has the slot and waits for room in the first queue. -/
  | awaitingRoom (id : WriteId)
  deriving DecidableEq, Repr

/-- Where a call that waits for all writes stands. -/
inductive Drain where
  | entering
  | awaiting
  | returned
  deriving DecidableEq, Repr

/-- A caller from outside. -/
inductive Caller where
  /-- Requests writes one after the other: where it stands, what is left, and the answers so far,
  each the reason of a refusal or none. -/
  | submitter (point : Submission) (left : List WriteId) (answers : List (Option JournalError))
  /-- Waits until no slot is in use. -/
  | drainer (point : Drain)
  deriving DecidableEq, Repr

namespace Caller

/-- Whether every call of the caller has returned. -/
def isOver : Caller → Bool
  | .submitter point left _ => point == .between && left.isEmpty
  | .drainer point => point == .returned

/-- The writes that a submitter has not got into the first queue, the current one first. -/
def ahead : Caller → List WriteId
  | .submitter .between left _ => left
  | .submitter (.awaitingSlot id) left _ | .submitter (.admitted id) left _
  | .submitter (.awaitingRoom id) left _ => id :: left
  | .drainer _ => []

/-- The write whose slot the caller has and that is in no queue yet. -/
def held? : Caller → Option WriteId
  | .submitter (.admitted id) _ _ | .submitter (.awaitingRoom id) _ _ => some id
  | _ => none

end Caller

/-- How far a shutdown has come. -/
inductive Closing where
  /-- None was asked for. -/
  | open
  /-- The queue of this stage is closed next. -/
  | closing (s : Stage)
  /-- The table is shut down next. -/
  | aborting
  /-- The end of the worker of this stage is waited for. -/
  | joining (s : Stage)
  /-- The workers are gone. -/
  | done
  deriving DecidableEq, Repr

/-- A write-ahead journaling pipeline. -/
structure Journal where
  config : Config
  table : Table.Monitor Actor
  queues : PerStage (Queue.Monitor Actor WriteId)
  workers : PerStage Worker := ⟨{}, {}, {}⟩
  callers : List Caller := []
  closing : Closing := .open
  /-- The tokens that were handed to the device and that it neither gave back nor dropped. -/
  outstanding : List Token := []
  deriving DecidableEq, Repr

namespace Journal

/-- A journal at its start. -/
def create (c : Config) : Journal where
  config := c
  table := { table := Table.create c.maxRequests }
  queues := .ofFn fun s => { queue := { name := s.name, capacity := c.bufferSize } }

/-- Starts a journal, if its configuration can build one. -/
def start (c : Config) : Except JournalError (Journal × List Event) := do
  c.check
  return (create c,
    [.workerStarted .metadata, .workerStarted .commit, .workerStarted .checkpoint,
      .started c.maxRequests c.bufferSize])

/-- The queue from which a stage takes its writes. -/
def queue (j : Journal) (s : Stage) : Queue WriteId := (j.queues.get s).queue

/-- Replaces the monitor of one queue. -/
def setQueue (j : Journal) (s : Stage) (m : Queue.Monitor Actor WriteId) : Journal :=
  { j with queues := j.queues.set s m }

/-- Puts the worker of a stage into a phase. -/
def setPhase (j : Journal) (s : Stage) (p : Phase) : Journal :=
  { j with workers := j.workers.set s { j.workers.get s with phase := p } }

/-- Replaces one caller. -/
def setCaller (j : Journal) (k : Nat) (c : Caller) : Journal :=
  { j with callers := j.callers.set k c }

/-- Whether the workers are gone. -/
def isShutDown (j : Journal) : Bool := j.closing == .done

/-- How many workers there are. -/
def workerCount (j : Journal) : Nat := if j.isShutDown then 0 else Stage.all.length

/-- How many writes the worker of a stage has advanced; none once it is gone. -/
def processed (j : Journal) (s : Stage) : Nat :=
  if j.isShutDown then 0 else (j.workers.get s).processed

/-- Whether an actor still owes a notification to one of the queues. -/
def isOwing (j : Journal) (a : Actor) : Bool := j.queues.toList.any (·.owed.any (·.1 = a))

/-- Whether all calls of a caller have returned: they are over, and it owes no notification. -/
def hasReturned (j : Journal) (k : Nat) : Bool :=
  j.callers[k]?.all (·.isOver) && !j.isOwing (.caller k)

/-- Whether some call from outside has not returned. -/
def isCalled (j : Journal) : Bool := !(List.range j.callers.length).all j.hasReturned

/-- The journal in structured text. -/
def text (j : Journal) : String :=
  Text.openRecord "Journal"
    [("config", j.config.text), ("in_flight", toString j.table.table.inFlight),
      ("workers", toString j.workerCount)]

end Journal

end WriteAhead
