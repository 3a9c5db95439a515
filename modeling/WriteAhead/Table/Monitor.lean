import WriteAhead.Table.Basic
import WriteAhead.Waiters

/-!
# Blocking calls on the request table

`Table.Monitor` is a table together with the callers that wait at it: for a slot to become free, for
the join of a stage, or for the whole table to drain. A blocking call begins with `enter`; each time
it is woken it looks again (`recheck`). The other operations never sleep, and they send their
notifications before they let anyone else in. `Monitor.step` puts them together; `stir` lets a
sleeper wake for no reason.
-/

namespace WriteAhead.Table

/-- What a blocking call waits for. -/
inductive Want where
  /-- To claim the slot of a write id. -/
  | slot (id : WriteId)
  /-- The join of a stage for the occupant of a slot. -/
  | join (id : WriteId) (stage : Stage)
  /-- That no slot is in use. -/
  | drain
  deriving DecidableEq, Repr

namespace Want

/-- Whether the call waits for the slot of a write id. -/
def isSlot (id : WriteId) : Want → Bool
  | .slot i => i == id
  | .join .. | .drain => false

/-- Whether the call waits for a join in the slot of a write id. -/
def isJoin (id : WriteId) : Want → Bool
  | .join i _ => i == id
  | .slot _ | .drain => false

/-- Whether the call waits for the table to drain. -/
def isDrain : Want → Bool
  | .drain => true
  | .slot _ | .join .. => false

end Want

/-- What a blocking call is answered. -/
inductive Reply where
  /-- The slot is claimed for an occupant of this generation. -/
  | acquired (generation : Generation)
  /-- The join holds. -/
  | joined
  /-- No slot is in use. -/
  | drained
  | refused (e : JournalError)
  /-- The call should not have been made. -/
  | failed (f : Fault)
  deriving DecidableEq, Repr

/-- A table and the callers that wait at it. -/
structure Monitor (κ : Type) where
  table : Table
  waiters : Waiters κ Want := {}
  deriving DecidableEq, Repr

namespace Monitor

variable {κ : Type}

/-- One critical section of a blocking call: the answer, or none if the caller falls asleep. A join
that holds is answered even after a shutdown. -/
def attempt (m : Monitor κ) (k : κ) (want : Want) : Monitor κ × Option Reply :=
  let asleep := { m with waiters := m.waiters.sleep k want }
  match want with
  | .slot id =>
    match m.table.acquire id with
    | .granted t generation => ({ m with table := t }, some (.acquired generation))
    | .refused e => (m, some (.refused e))
    | .busy => (asleep, none)
  | .join id stage =>
    match m.table.slot? id with
    | none => (m, some (.failed (.noSlot m.table.capacity id)))
    | some s =>
      -- Before the shutdown: a join that holds is answered all the same.
      if s.completed.containsAll stage.join then (m, some .joined)
      else if m.table.isShutDown then (m, some (.refused .shutDown))
      else (asleep, none)
  | .drain => if m.table.isDrained then (m, some .drained) else (asleep, none)

/-- Begins a blocking call. -/
def enter (m : Monitor κ) (k : κ) (want : Want) : Monitor κ × Option Reply := m.attempt k want

/-- Wakes those for whom it matters that a slot was released, if one was. -/
def notifyRelease (m : Monitor κ) (id : WriteId) (released : Bool) : Monitor κ :=
  if released then
    let w := m.waiters.notifyAll (Want.isSlot id)
    -- Only the release of the last occupant wakes those that wait for all.
    { m with waiters := if m.table.isDrained then w.notifyAll Want.isDrain else w }
  else m

/-- Counts an operation as outstanding. -/
def recordIssue (m : Monitor κ) (id : WriteId) : Except Fault (Monitor κ × Generation) :=
  (m.table.recordIssue id).map fun (t, generation) => ({ m with table := t }, generation)

/-- Takes the report of a completed operation. A join that now holds wakes one caller that waits for
a join in the slot; a release wakes those that wait for it. -/
def recordCompletion (m : Monitor κ) (id : WriteId) (op : Operation)
    (generation : Option Generation) : Monitor κ × Verdict :=
  match m.table.recordCompletion id op generation with
  | (t, .accepted joined unissued released) =>
    -- Whoever is woken here looks at the slot as the release has left it.
    let w := if joined then m.waiters.notifyOne (Want.isJoin id) else m.waiters
    (Monitor.notifyRelease ⟨t, w⟩ id released, .accepted joined unissued released)
  | (t, verdict) => ({ m with table := t }, verdict)

/-- Notes that the checkpoint stage is done with the occupant; says if that released the slot. -/
def markCheckpointDone (m : Monitor κ) (id : WriteId) : Except Fault (Monitor κ × Bool) :=
  (m.table.markCheckpointDone id).map fun (t, released) =>
    ({ m with table := t }.notifyRelease id released, released)

/-- Shuts the table down and wakes every caller. -/
def shutDown (m : Monitor κ) : Monitor κ :=
  ⟨m.table.shutDown, (m.waiters.notifyAll (!Want.isDrain ·)).notifyAll Want.isDrain⟩

variable [DecidableEq κ]

/-- A woken caller looks again; none if the caller has not been woken. -/
def recheck (m : Monitor κ) (k : κ) : Option (Monitor κ × Option Reply) :=
  (m.waiters.wokenWant? k).map fun want =>
    { m with waiters := m.waiters.resume k }.attempt k want

/-- Whether a caller is not waiting. -/
def isFree (m : Monitor κ) (k : κ) : Bool :=
  !(m.waiters.asleep.any (·.1 = k) || m.waiters.woken.any (·.1 = k))

/-- A step that some caller may take next. -/
inductive Action (κ : Type) where
  /-- A caller begins a blocking call. -/
  | enter (k : κ) (want : Want)
  /-- A woken caller looks again. -/
  | recheck (k : κ)
  /-- A sleeping caller wakes without a notification. -/
  | stir (k : κ)
  /-- An operation is about to be issued. -/
  | issue (id : WriteId)
  /-- An operation is reported complete. -/
  | complete (id : WriteId) (op : Operation) (generation : Option Generation)
  /-- The checkpoint stage is done with an occupant. -/
  | mark (id : WriteId)
  | shutDown
  deriving DecidableEq, Repr

/-- What a step yields. -/
inductive Yield where
  /-- Nothing to report. -/
  | nothing
  /-- A blocking call is answered. -/
  | reply (r : Reply)
  /-- An operation was counted for an occupant of this generation. -/
  | issued (generation : Generation)
  /-- What became of a report. -/
  | verdict (v : Verdict)
  /-- Whether a mark released the slot. -/
  | marked (released : Bool)
  /-- The call should not have been made. -/
  | failed (f : Fault)
  deriving DecidableEq, Repr

/-- The yield of a critical section of a blocking call. -/
def Yield.ofReply? : Option Reply → Yield
  | some r => .reply r
  | none => .nothing

/-- One step and what it yields; none if the step is not possible. -/
def step (m : Monitor κ) : Action κ → Option (Monitor κ × Yield)
  | .enter k want =>
    if m.isFree k then
      let (m', r) := m.enter k want
      some (m', .ofReply? r)
    else none
  | .recheck k => (m.recheck k).map fun (m', r) => (m', .ofReply? r)
  | .stir k =>
    if m.waiters.isAsleep k then some ({ m with waiters := m.waiters.stir k }, .nothing) else none
  | .issue id =>
    match m.recordIssue id with
    | .ok (m', generation) => some (m', .issued generation)
    | .error f => some (m, .failed f)
  | .complete id op generation =>
    let (m', v) := m.recordCompletion id op generation
    some (m', .verdict v)
  | .mark id =>
    match m.markCheckpointDone id with
    | .ok (m', released) => some (m', .marked released)
    | .error f => some (m, .failed f)
  | .shutDown => some (m.shutDown, .nothing)

end Monitor

end WriteAhead.Table
