import WriteAhead.JournalError
import WriteAhead.Table.Slot

/-!
# The request table

`Table` holds one slot for each write id. Its operations are atomic:

* `acquire` gives the slot of an id to a new occupant, unless it is in use;
* `recordIssue` counts an operation as outstanding, before the device gets it;
* `recordCompletion` takes the report of an operation and says what became of it;
* `markCheckpointDone` notes that the checkpoint stage is done with the occupant;
* `shutDown` makes every later claim fail.

A slot is released in the operation that makes both of these true: the checkpoint stage is done, and
no operation is outstanding.

The counters `stale`, `duplicate` and `inFlight` are natural numbers here. A machine word holds the
first two as long as fewer than `2 ^ 64` reports are refused, and `inFlight` is at most the number
of slots. What can overflow in practice is modelled as it is: `maxPending` bounds the operations
that a slot counts, and a `Generation` wraps around.
-/

namespace WriteAhead

/-- One slot for each write id, with the counters of the table. -/
structure Table where
  slots : Array Slot
  /-- How many slots are in use. -/
  inFlight : Nat := 0
  isShutDown : Bool := false
  /-- Reports refused since they were for no current occupant. -/
  stale : Nat := 0
  /-- Reports refused since the operation had already completed. -/
  duplicate : Nat := 0
  deriving DecidableEq, Repr, Inhabited

namespace Table

/-- A table of free slots. -/
def create (capacity : Nat) : Table := { slots := Array.replicate capacity {} }

/-- The number of slots. -/
def capacity (t : Table) : Nat := t.slots.size

/-- The slot of a write id. -/
def slot? (t : Table) (id : WriteId) : Option Slot := t.slots[id]?

/-- Changes one slot. -/
def modify (t : Table) (id : WriteId) (f : Slot → Slot) : Table :=
  { t with slots := t.slots.modify id f }

/-- A use of the table that its callers must not make; it ends the caller. -/
inductive Fault where
  /-- There is no such slot. -/
  | noSlot (capacity : Nat) (id : WriteId)
  /-- An operation is issued for a slot that is not in use. -/
  | freeSlot (id : WriteId)
  /-- The count of outstanding operations has no next value. -/
  | pendingOverflow
  deriving DecidableEq, Repr

/-- The fault in words. -/
def Fault.message : Fault → String
  | .noSlot capacity id => s!"index out of bounds: the len is {capacity} but the index is {id}"
  | .freeSlot id => s!"issue for free slot {id}"
  | .pendingOverflow => "attempt to add with overflow"

/-- The answer to a claim on a slot. -/
inductive Claim where
  /-- The slot has a new occupant, of this generation. -/
  | granted (t : Table) (generation : Generation)
  /-- The slot still has an occupant. -/
  | busy
  | refused (e : JournalError)
  deriving Repr

/-- Claims the slot of a write id for a new occupant. -/
def acquire (t : Table) (id : WriteId) : Claim :=
  match t.slot? id with
  | none => .refused (.invalidWriteId id (t.capacity - 1))
  | some s =>
    -- The shutdown comes before the occupant: nobody falls asleep after it.
    if t.isShutDown then .refused .shutDown
    else if s.inUse then .busy
    else
      .granted { t.modify id Slot.occupy with inFlight := t.inFlight + 1 } s.occupy.generation

/-- The largest count of outstanding operations. -/
def maxPending : Nat := 0xFFFFFFFF

/-- Counts an operation as outstanding; yields the generation that its report must carry. -/
def recordIssue (t : Table) (id : WriteId) : Except Fault (Table × Generation) :=
  match t.slot? id with
  | none => .error (.noSlot t.capacity id)
  | some s =>
    if !s.inUse then .error (.freeSlot id)
    else if maxPending ≤ s.pendingIo then .error .pendingOverflow
    else .ok (t.modify id fun s => { s with pendingIo := s.pendingIo + 1 }, s.generation)

/-- Releases the slot if its occupant is drained, and says whether it did. -/
def tryRelease (t : Table) (id : WriteId) : Table × Bool :=
  match t.slot? id with
  | none => (t, false)
  | some s =>
    if s.inUse && s.isDrained then
      ({ t.modify id Slot.reset with inFlight := t.inFlight - 1 }, true)
    else (t, false)

/-- What a report of a completed operation comes to. -/
inductive Outcome where
  /-- Noted; the join of the operation's stage still lacks others. -/
  | pending
  /-- Noted; with it the join of this stage holds. -/
  | joined (s : Stage)
  /-- Refused: it is for no current occupant. -/
  | stale
  /-- Refused: the operation had already completed. -/
  | duplicate
  deriving DecidableEq, Repr

/-- The outcome in structured text. -/
def Outcome.text : Outcome → String
  | .pending => "Pending"
  | .joined s => "Joined(" ++ s.label ++ ")"
  | .stale => "Stale"
  | .duplicate => "Duplicate"

/-- All that is known of a report once the table has taken it. -/
inductive Verdict where
  /-- Refused: there is no slot for the write id. -/
  | unknown
  /-- Refused: the slot is free or its occupant is of another generation than the report; `current`
  is the generation of the slot. -/
  | stale (current : Generation)
  /-- Refused: the operation had already completed. -/
  | duplicate
  /-- Noted. It may be the report for which the stage waited, come without an issue on record, and
  release the slot. -/
  | accepted (joined unissued released : Bool)
  deriving DecidableEq, Repr

/-- What a verdict on a report of an operation tells its sender. -/
def Verdict.outcome (op : Operation) : Verdict → Outcome
  | .unknown | .stale _ => .stale
  | .duplicate => .duplicate
  | .accepted joined _ _ => if joined then .joined op.stage else .pending

/-- Takes the report of a completed operation. A report with a generation counts only for the
occupant of that generation, one without counts for whoever occupies the slot. -/
def recordCompletion (t : Table) (id : WriteId) (op : Operation)
    (generation : Option Generation) : Table × Verdict :=
  match t.slot? id with
  | none => ({ t with stale := t.stale + 1 }, .unknown)
  | some s =>
    if !s.accepts generation then ({ t with stale := t.stale + 1 }, .stale s.generation)
    else if s.completed.contains op then ({ t with duplicate := t.duplicate + 1 }, .duplicate)
    else
      let completed := s.completed.insert op
      let (t', released) :=
        (t.modify id fun s =>
          { s with completed := s.completed.insert op, pendingIo := s.pendingIo - 1 }).tryRelease id
      -- The join is judged before the release, the count before the report.
      (t', .accepted (completed.containsAll op.stage.join) (s.pendingIo == 0) released)

/-- Notes that the checkpoint stage is done with the occupant; says if that released the slot. -/
def markCheckpointDone (t : Table) (id : WriteId) : Except Fault (Table × Bool) :=
  match t.slot? id with
  | none => .error (.noSlot t.capacity id)
  -- Whether the slot is in use is not asked.
  | some _ => .ok ((t.modify id fun s => { s with checkpointDone := true }).tryRelease id)

/-- Makes every later claim fail. -/
def shutDown (t : Table) : Table := { t with isShutDown := true }

/-- Whether no slot is in use. -/
def isDrained (t : Table) : Bool := t.inFlight == 0

end Table

end WriteAhead
