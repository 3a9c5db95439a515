import WriteAhead.Queue.Basic
import WriteAhead.Waiters

/-!
# Blocking calls on a queue

`Queue.Monitor` is a queue together with the callers that wait at it. A call is a sequence of atomic
steps, each one critical section or one notification:

* `enter` begins a blocking push or pop: it is answered, or the caller falls asleep;
* `recheck` lets a woken caller look again, with the same two ends;
* `tryPush`, `tryPop` and `close` never sleep;
* `count` counts a value that was taken without waiting, after its caller has left the critical
  section in which it took it;
* `deliver` sends the notification that a caller still owes, after it has left the critical section.

Between two steps of one caller any other caller may take its own. `Monitor.step` puts them
together.
-/

namespace WriteAhead.Queue

/-- What a blocking call wants from a queue. -/
inductive Want (α : Type) where
  /-- Room for a value. -/
  | push (v : α)
  /-- A value. -/
  | pop
  deriving DecidableEq, Repr

namespace Want

variable {α : Type}

/-- Whether the call waits for room. -/
def isPush : Want α → Bool
  | .push _ => true
  | .pop => false

/-- Whether the call waits for a value. -/
def isPop (w : Want α) : Bool := !w.isPush

end Want

/-- A notification to be sent to the callers of a queue. -/
inductive Signal where
  /-- Room for one value: wakes one producer. -/
  | room
  /-- One more value: wakes one consumer. -/
  | item
  /-- The queue is closed: wakes every consumer. -/
  | noMoreItems
  /-- The queue is closed: wakes every producer. -/
  | noMoreRoom
  deriving DecidableEq, Repr

/-- What a call is answered. -/
inductive Reply (α : Type) where
  /-- The value was accepted. -/
  | pushed
  /-- The value is handed back, since the queue is closed. -/
  | refused (v : α)
  /-- The value is handed back, since the queue is full. -/
  | full (v : α)
  /-- The oldest value. -/
  | item (v : α)
  /-- There is no value. -/
  | nothing
  /-- The queue is closed now. -/
  | closed
  deriving DecidableEq, Repr

/-- A queue and the callers that wait at it. -/
structure Monitor (κ α : Type) where
  queue : Queue α
  waiters : Waiters κ (Want α) := {}
  /-- Callers that took a value without waiting and have not counted it yet. -/
  uncounted : List κ := []
  /-- Notifications not sent yet, each with the caller that owes it. -/
  owed : List (κ × Signal) := []
  deriving DecidableEq, Repr

namespace Monitor

variable {κ α : Type}

/-- A caller will have to send a notification. -/
def owe (m : Monitor κ α) (k : κ) (s : Signal) : Monitor κ α :=
  { m with owed := m.owed ++ [(k, s)] }

/-- One critical section of a blocking call: the answer, or none if the caller falls asleep. The
caller counts as having waited the first time it sleeps. -/
def attempt (m : Monitor κ α) (k : κ) (want : Want α) (first : Bool) :
    Monitor κ α × Option (Reply α) :=
  match want with
  | .push v =>
    match m.queue.bring v with
    -- The value is in, but whoever waits for it learns of it only when the caller delivers.
    | .accepted q => ({ m with queue := q }.owe k .item, some .pushed)
    | .refused => (m, some (.refused v))
    | .full =>
      let q := if first then { m.queue with pushBlocked := m.queue.pushBlocked + 1 } else m.queue
      ({ m with queue := q, waiters := m.waiters.sleep k want }, none)
  | .pop =>
    match m.queue.take with
    | .item v q => ({ m with queue := q }.owe k .room, some (.item v))
    | .ended => (m, some .nothing)
    | .empty =>
      let q := if first then { m.queue with popWaited := m.queue.popWaited + 1 } else m.queue
      ({ m with queue := q, waiters := m.waiters.sleep k want }, none)

/-- Begins a blocking call. -/
def enter (m : Monitor κ α) (k : κ) (want : Want α) : Monitor κ α × Option (Reply α) :=
  m.attempt k want true

/-- Brings a value without waiting. -/
def tryPush (m : Monitor κ α) (k : κ) (v : α) : Monitor κ α × Reply α :=
  match m.queue.offer v with
  | .accepted q => ({ m with queue := q }.owe k .item, .pushed)
  | .refused => (m, .refused v)
  | .full => (m, .full v)

/-- Takes a value without waiting. Whether the queue is closed makes no difference to that. -/
def tryPop (m : Monitor κ α) (k : κ) : Monitor κ α × Reply α :=
  match m.queue.remove? with
  -- The value is out, but the caller counts it only after it has left the critical section.
  | some (v, q) =>
    ({ m with queue := q, uncounted := k :: m.uncounted }.owe k .room, .item v)
  | none => (m, .nothing)

/-- Closes the queue. -/
def close (m : Monitor κ α) (k : κ) : Monitor κ α :=
  { m with queue := m.queue.close }.owe k .noMoreItems |>.owe k .noMoreRoom

/-- Sends a notification. -/
def notify (m : Monitor κ α) : Signal → Monitor κ α
  | .room => { m with waiters := m.waiters.notifyOne Want.isPush }
  | .item => { m with waiters := m.waiters.notifyOne Want.isPop }
  | .noMoreItems => { m with waiters := m.waiters.notifyAll Want.isPop }
  | .noMoreRoom => { m with waiters := m.waiters.notifyAll Want.isPush }

variable [DecidableEq κ]

/-- A woken caller looks again; none if the caller has not been woken. -/
def recheck (m : Monitor κ α) (k : κ) : Option (Monitor κ α × Option (Reply α)) :=
  (m.waiters.wokenWant? k).map fun want =>
    { m with waiters := m.waiters.resume k }.attempt k want false

/-- A caller counts the value that it took without waiting; none if it took none. -/
def count (m : Monitor κ α) (k : κ) : Option (Monitor κ α) :=
  if k ∈ m.uncounted then
    some { m with queue := m.queue.countPop, uncounted := m.uncounted.erase k }
  else none

/-- A caller sends the first notification that it owes; none if it owes none. -/
def deliver (m : Monitor κ α) (k : κ) : Option (Monitor κ α) :=
  (m.owed.find? (·.1 = k)).map fun (_, s) =>
    { m with owed := m.owed.eraseP (·.1 = k) }.notify s

/-- Whether a caller is between its calls: it does not wait, has no value to count and owes no
notification. -/
def isFree (m : Monitor κ α) (k : κ) : Bool :=
  !(m.waiters.asleep.any (·.1 = k) || m.waiters.woken.any (·.1 = k) || m.owed.any (·.1 = k) ||
    m.uncounted.any (· = k))

/-- A step that some caller may take next. -/
inductive Action (κ α : Type) where
  /-- A caller begins a blocking call. -/
  | enter (k : κ) (want : Want α)
  /-- A caller brings a value without waiting. -/
  | tryPush (k : κ) (v : α)
  /-- A caller takes a value without waiting. -/
  | tryPop (k : κ)
  /-- A caller closes the queue. -/
  | close (k : κ)
  /-- A woken caller looks again. -/
  | recheck (k : κ)
  /-- A caller counts the value that it took without waiting. -/
  | count (k : κ)
  /-- A caller sends the notification that it owes. -/
  | deliver (k : κ)
  deriving DecidableEq, Repr

/-- Whose step it is. -/
def Action.caller {κ α : Type} : Action κ α → κ
  | .enter k _ | .tryPush k _ | .tryPop k | .close k | .recheck k | .count k | .deliver k => k

/-- One step and the answer that it gives, if it gives one; none if the step is not possible. Only a
caller between its calls can begin one, and a value is counted before the notification for its place
is sent. -/
def step (m : Monitor κ α) : Action κ α → Option (Monitor κ α × Option (Reply α))
  | .enter k want => if m.isFree k then some (m.enter k want) else none
  | .tryPush k v => if m.isFree k then some ((m.tryPush k v).1, some (m.tryPush k v).2) else none
  | .tryPop k => if m.isFree k then some ((m.tryPop k).1, some (m.tryPop k).2) else none
  | .close k => if m.isFree k then some (m.close k, some .closed) else none
  | .recheck k => m.recheck k
  | .count k => (m.count k).map (·, none)
  | .deliver k => if k ∈ m.uncounted then none else (m.deliver k).map (·, none)

end Monitor

end WriteAhead.Queue
