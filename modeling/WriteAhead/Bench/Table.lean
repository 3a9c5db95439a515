import WriteAhead.Rest
import WriteAhead.Table.Monitor
import WriteAhead.Table.Notice

/-!
# A bench for request tables

The bench drives one table with commands. Each blocking command is a call of a caller of its own,
numbered in order of their start; after each command every caller comes to rest. At most one caller
at a time waits for a slot, and one for a join in it: a further command of the kind is turned down.
-/

namespace WriteAhead.Bench

open Table

/-- A table under test and the number of callers that have begun. -/
structure TableBench where
  monitor : Monitor Nat
  callers : Nat := 0

namespace TableBench

/-- A bench with a table of free slots. -/
def create (capacity : Nat) : TableBench := { monitor := { table := Table.create capacity } }

/-- What can be asked of a table. -/
inductive Command where
  | acquire (id : WriteId)
  | join (id : WriteId) (stage : Stage)
  | waitAll
  | waitAllBriefly
  | issue (id : WriteId)
  | complete (id : WriteId) (op : Operation) (generation : Option Generation)
  | mark (id : WriteId)
  | slot (id : WriteId)
  | capacity
  | shutDown

/-- The answer to a command. -/
inductive Answer where
  /-- The answer of a blocking call. -/
  | reply (r : Reply)
  /-- The call has not come to its end; it is the call of this caller. -/
  | blocked (caller : Nat)
  /-- Another caller already waits for the same. -/
  | waiterExists
  | issued (generation : Generation)
  | failed (f : Fault)
  | outcome (o : Outcome)
  | flag (b : Bool)
  | slot (s : Option Slot)
  | number (n : Nat)
  | done

/-- What is seen of a command: its answer, the earlier calls that ended, and the messages. -/
structure Record where
  answer : Answer
  woke : List (Nat × Reply) := []
  notices : List Notice := []

/-- The notice of a critical section that a claim went through without being answered. -/
def busyNotices (want : Want) (reply : Option Reply) : List Notice :=
  match want, reply with
  | .slot id, none => [.busy id]
  | _, _ => []

/-- What a step towards rest yields: the calls that ended and the notices. -/
abbrev Progress := List (Nat × Reply) × List Notice

/-- The next step towards rest: a woken caller looks again. -/
def next (m : Monitor Nat) : Option (Monitor Nat × List (Nat × Option Reply × List Notice)) :=
  match m.waiters.woken with
  | (k, want) :: _ =>
    (m.recheck k).map fun (m', r) => (m', [(k, r, busyNotices want r)])
  | [] => none

/-- Lets every caller come to rest; yields the calls that ended, by caller, and the notices. -/
def settle (m : Monitor Nat) : Monitor Nat × Progress :=
  let (m, steps) := runToRest next m.waiters.woken.length m
  let ended := steps.filterMap fun (k, r, _) => r.map (k, ·)
  (m, ended.mergeSort (·.1 ≤ ·.1), steps.flatMap (·.2.2))

/-- Performs a blocking command by a new caller. -/
def block (b : TableBench) (want : Want) : TableBench × Record :=
  let k := b.callers
  let (m, reply) := b.monitor.enter k want
  let (m, woke, notices) := settle m
  ({ monitor := m, callers := k + 1 },
    { answer := match reply with
        | some r => .reply r
        | none => .blocked k
      woke
      notices := busyNotices want reply ++ notices })

/-- Whether some caller waits for what `same` describes. -/
def isAwaited (b : TableBench) (same : Want → Bool) : Bool :=
  b.monitor.waiters.asleep.any (same ·.2)

/-- Performs a blocking command unless some caller waits for what `same` describes. -/
def blockAlone (b : TableBench) (want : Want) (same : Want → Bool) : TableBench × Record :=
  if b.isAwaited same then (b, { answer := .waiterExists }) else b.block want

/-- Ends a command that does not block. -/
def act (b : TableBench) (m : Monitor Nat) (answer : Answer) (before : List Notice := []) :
    TableBench × Record :=
  let (m, woke, notices) := settle m
  ({ b with monitor := m }, { answer, woke, notices := before ++ notices })

/-- Performs a command and lets every caller come to rest. -/
def perform (b : TableBench) : Command → TableBench × Record
  | .acquire id => b.blockAlone (.slot id) (Want.isSlot id)
  | .join id stage => b.blockAlone (.join id stage) (Want.isJoin id)
  | .waitAll => b.block .drain
  | .waitAllBriefly => (b, { answer := .flag b.monitor.table.isDrained })
  | .issue id =>
    match b.monitor.recordIssue id with
    | .ok (m, generation) => b.act m (.issued generation)
    | .error f => (b, { answer := .failed f })
  | .complete id op generation =>
    let (m, v) := b.monitor.recordCompletion id op generation
    b.act m (.outcome (v.outcome op)) (v.notices id op generation)
  | .mark id =>
    match b.monitor.markCheckpointDone id with
    | .ok (m, released) => b.act m (.flag released) (releaseNotices id released)
    | .error f => (b, { answer := .failed f })
  | .slot id => (b, { answer := .slot (b.monitor.table.slot? id) })
  | .capacity => (b, { answer := .number b.monitor.table.capacity })
  | .shutDown => b.act b.monitor.shutDown .done

end TableBench

end WriteAhead.Bench
