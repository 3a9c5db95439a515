import WriteAhead.Log.Line
import WriteAhead.Queue.Monitor
import WriteAhead.Rest

/-!
# A bench for queues

The bench drives one queue with commands. Each blocking command is a call of a caller of its own,
numbered in order of their start; after each command every caller comes to rest. The other commands
are calls of the bench itself.
-/

namespace WriteAhead.Bench

open Queue

/-- A caller at the bench: a numbered one, or the bench itself. -/
abbrev QueueCaller := Option Nat

/-- A queue under test and the number of callers that have begun. -/
structure QueueBench (α : Type) where
  monitor : Monitor QueueCaller α
  callers : Nat := 0

namespace QueueBench

variable {α : Type}

/-- What can be asked of a queue. -/
inductive Command (α : Type) where
  | push (v : α)
  | pop
  | tryPush (v : α)
  | tryPop
  | close
  | info
  | text

/-- The answer to a command. -/
inductive Answer (α : Type) where
  /-- The answer of a call. -/
  | reply (r : Reply α)
  /-- The call has not come to its end; it is the call of this caller. -/
  | blocked (caller : Nat)
  /-- Name, capacity and whether the queue is empty. -/
  | info (name : String) (capacity : Nat) (isEmpty : Bool)
  /-- The queue in structured text. -/
  | text (s : String)

/-- What is seen of a command: its answer, the earlier calls that ended, and the messages. -/
structure Record (α : Type) where
  answer : Answer α
  woke : List (Nat × Reply α)
  lines : List Log.Line

/-- The next step towards rest: a value that is to be counted, a notification that is owed, or a
woken caller that looks again. -/
def nextAction? (m : Monitor QueueCaller α) : Option (Monitor.Action QueueCaller α) :=
  match m.uncounted, m.owed, m.waiters.woken with
  | k :: _, _, _ => some (.count k)
  | [], (k, _) :: _, _ => some (.deliver k)
  | [], [], (k, _) :: _ => some (.recheck k)
  | [], [], [] => none

/-- Takes the next step towards rest; yields the call that it ends. -/
def next (m : Monitor QueueCaller α) :
    Option (Monitor QueueCaller α × List (QueueCaller × Reply α)) :=
  (nextAction? m).bind fun a =>
    (m.step a).map fun (m', r) => (m', r.toList.map (a.caller, ·))

/-- A bound on the steps to rest. -/
def workLeft (m : Monitor QueueCaller α) : Nat :=
  let waiting := m.waiters.asleep.length + m.waiters.woken.length
  2 * (m.uncounted.length + m.owed.length + waiting + 1) * (waiting + 1)

/-- Lets every caller come to rest; yields the calls that ended. -/
def settle (m : Monitor QueueCaller α) : Monitor QueueCaller α × List (QueueCaller × Reply α) :=
  runToRest next (workLeft m) m

/-- The numbered callers among those whose calls ended, in ascending order. -/
def numbered (ended : List (QueueCaller × Reply α)) : List (Nat × Reply α) :=
  (ended.filterMap fun (k, r) => k.map (·, r)).mergeSort (·.1 ≤ ·.1)

/-- The message of a producer that falls asleep. -/
def stallLine (q : Queue α) : Log.Line :=
  ⟨.debug, .queue, fullMessage q.name q.capacity⟩

/-- Performs a blocking command by a new caller. -/
def block (b : QueueBench α) (want : Want α) : QueueBench α × Record α :=
  let k := b.callers
  let (m, reply) := b.monitor.enter (some k) want
  let lines := if reply.isNone && want.isPush then [stallLine b.monitor.queue] else []
  let (m, ended) := settle m
  ({ monitor := m, callers := k + 1 },
    { answer := match reply with
        | some r => .reply r
        | none => .blocked k
      woke := numbered ended
      lines })

/-- Performs a command of the bench itself. -/
def act (b : QueueBench α) (m : Monitor QueueCaller α) (answer : Answer α) :
    QueueBench α × Record α :=
  let (m, ended) := settle m
  ({ b with monitor := m }, { answer, woke := numbered ended, lines := [] })

/-- Performs a command and lets every caller come to rest. -/
def perform (b : QueueBench α) : Command α → QueueBench α × Record α
  | .push v => b.block (.push v)
  | .pop => b.block .pop
  | .tryPush v =>
    let (m, r) := b.monitor.tryPush none v
    b.act m (.reply r)
  | .tryPop =>
    let (m, r) := b.monitor.tryPop none
    b.act m (.reply r)
  | .close => b.act (b.monitor.close none) (.reply .closed)
  | .info =>
    let q := b.monitor.queue
    b.act b.monitor (.info q.name q.capacity q.items.isEmpty)
  | .text => b.act b.monitor (.text b.monitor.queue.text)

end QueueBench

end WriteAhead.Bench
