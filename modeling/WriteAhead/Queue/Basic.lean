import WriteAhead.Text.Structured

/-!
# Bounded queues

A `Queue` is a first-in first-out buffer of fixed capacity that can be closed. `bring` and `offer`
say what becomes of a value that is brought to it, by a producer that may wait for room and by one
that may not; `take` and `remove?` say what it has for a consumer of either kind. All of them leave
waiting to the caller. A closed queue accepts nothing, and what it still holds can be taken.

Counters and sizes are natural numbers here. Machine words hold them as long as fewer than `2 ^ 64`
values are counted and the buffer fits into memory.
-/

namespace WriteAhead

/-- A bounded first-in first-out buffer with its counters. -/
structure Queue (α : Type) where
  name : String
  /-- How many values the queue holds at most. -/
  capacity : Nat
  /-- The queued values, the oldest first. -/
  items : List α := []
  closed : Bool := false
  /-- Values accepted so far. -/
  pushed : Nat := 0
  /-- Values taken so far. -/
  popped : Nat := 0
  /-- Producers that had to wait for room. -/
  pushBlocked : Nat := 0
  /-- Consumers that had to wait for a value. -/
  popWaited : Nat := 0
  deriving DecidableEq, Repr, Inhabited

namespace Queue

variable {α : Type}

/-- Why a queue cannot be made, in words. -/
def noCapacityMessage : String := "queue capacity must be non-zero"

/-- An open queue without values; none if it could never hold one. -/
def create? (name : String) (capacity : Nat) : Option (Queue α) :=
  if capacity = 0 then none else some { name, capacity }

/-- What becomes of a value brought to a queue. -/
inductive Offer (α : Type) where
  /-- The queue took the value. -/
  | accepted (q : Queue α)
  /-- The queue has no room for it now. -/
  | full
  /-- The queue takes no more values. -/
  | refused
  deriving Repr

/-- The queue with one more value at its end, which it counts. -/
def append (q : Queue α) (v : α) : Queue α :=
  { q with items := q.items ++ [v], pushed := q.pushed + 1 }

/-- Brings a value to the queue for a producer that may wait: while there is no room, the queue is
looked at again, and after that once more. -/
def bring (q : Queue α) (v : α) : Offer α :=
  if q.capacity ≤ q.items.length then
    if q.closed then .refused else .full
  else if q.closed then .refused
  else .accepted (q.append v)

/-- Brings a value to the queue for a producer that does not wait: a queue that is closed is not
asked for room. -/
def offer (q : Queue α) (v : α) : Offer α :=
  if q.closed then .refused
  else if q.capacity ≤ q.items.length then .full
  else .accepted (q.append v)

/-- Removes the oldest value, if there is one, and does not count it. -/
def remove? (q : Queue α) : Option (α × Queue α) :=
  match q.items with
  | v :: rest => some (v, { q with items := rest })
  | [] => none

/-- Counts a value that was removed. -/
def countPop (q : Queue α) : Queue α := { q with popped := q.popped + 1 }

/-- What a queue has for a consumer that may wait. -/
inductive Take (α : Type) where
  /-- The oldest value, and the queue without it. -/
  | item (v : α) (q : Queue α)
  /-- There is no value now. -/
  | empty
  /-- There is none, and none will come. -/
  | ended
  deriving Repr

/-- Takes the oldest value and counts it. -/
def take (q : Queue α) : Take α :=
  match q.remove? with
  | some (v, q') => .item v q'.countPop
  | none => if q.closed then .ended else .empty

/-- Closes the queue. -/
def close (q : Queue α) : Queue α := { q with closed := true }

/-- The number of queued values. -/
def length (q : Queue α) : Nat := q.items.length

/-- The message for a producer that has to wait. -/
def fullMessage (name : String) (capacity : Nat) : String :=
  s!"{name} queue full ({capacity} items), producer waiting"

/-- The queue in structured text. -/
def text (q : Queue α) : String :=
  Text.openRecord "BoundedQueue"
    [("name", Text.quote q.name), ("capacity", toString q.capacity),
      ("len", toString q.length), ("closed", toString q.closed)]

end Queue

end WriteAhead
