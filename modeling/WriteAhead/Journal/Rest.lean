import WriteAhead.Journal.Step
import WriteAhead.Rest

/-!
# A journal at rest

A journal is at rest when no actor can go on. `next` is one way to get there: of the actors that can
go on it always picks the first, callers before the shutdown before the workers. Which client calls
panic is a parameter.
-/

namespace WriteAhead.Journal

/-- All actors of a journal. -/
def actors (j : Journal) : List Actor :=
  (List.range j.callers.length).map .caller ++ .closer :: Stage.all.map .worker

/-- Whether the next thing that an actor does is a call of the client that panics. -/
def isPanicking (j : Journal) (panicsOn : List WriteId) (a : Actor) : Bool :=
  a == .worker .checkpoint &&
    match (j.workers.get .checkpoint).phase with
    | .notifying id => panicsOn.contains id
    | _ => false

/-- What an actor does next, for a client that panics on the given writes. -/
def actionOf (j : Journal) (panicsOn : List WriteId) (a : Actor) : Action :=
  if j.isPanicking panicsOn a then .clientPanic else .act a

/-- The next step of the first actor that can go on. -/
def next (panicsOn : List WriteId) (j : Journal) : Option Step :=
  j.actors.findSome? fun a => j.step (j.actionOf panicsOn a)

/-- The writes that have still to go through the stages, counting those that a caller requests. -/
def writesLeft (j : Journal) : Nat :=
  (j.callers.flatMap (·.ahead)).length + j.callers.length +
    (j.queues.toList.flatMap (·.queue.items)).length + Stage.all.length

/-- A bound on the steps to rest: each write takes less than 64 on its way, and each of them may
wake every caller. -/
def workLeft (j : Journal) : Nat := 64 * (j.writesLeft + 1) * (j.callers.length + 4)

/-- Lets every actor go on until the journal is at rest. -/
def settle (panicsOn : List WriteId) (j : Journal) : Step :=
  runToRest (next panicsOn) j.workLeft j

end WriteAhead.Journal
