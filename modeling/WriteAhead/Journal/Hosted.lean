import WriteAhead.Journal.Step

/-!
# A journal and the code that its workers call

A worker calls the device with each token and the last one calls the client with each write, and
both may call the journal in their turn before they return: only a request for the same write is
forbidden to the client. `Hosted` is a journal together with the calls made in that way. While one
of them has not returned, the worker that is inside the device or the client waits with it, and
`Hosted.step` takes no step of that worker. Everything else is as in `Journal.step`.

The device and the client do nothing here that would keep a worker for another reason: between two
calls on the journal they may return at any moment.
-/

namespace WriteAhead.Journal

/-- Whether the worker of a stage may still be inside the device or the client: the step that hands
the token over, or tells the client, was its last one. -/
def isHosting (j : Journal) (s : Stage) : Bool :=
  match (j.workers.get s).phase with
  -- At least one operation has been handed over.
  | .issuing _ left => left.length < s.operations.length
  | .marking _ => true
  | _ => false

/-- A journal with the calls that the device and the client make on it. -/
structure Hosted where
  journal : Journal
  /-- The caller as which the device or the client called the journal last, for the stage whose
  worker is inside. -/
  within : PerStage (Option Nat) := ⟨none, none, none⟩
  deriving DecidableEq, Repr

namespace Hosted

/-- Whether the worker of a stage is inside the device or the client and waits with it for a call on
the journal to return. -/
def isInside (h : Hosted) (s : Stage) : Bool :=
  (h.within.get s).any fun k => !h.journal.hasReturned k

/-- Something that can happen to a journal and to the code that its workers call. -/
inductive Action where
  /-- Something happens to the journal. -/
  | plain (a : Journal.Action)
  /-- The device or the client, with the worker of a stage inside, requests writes. -/
  | request (s : Stage) (ids : List WriteId)
  /-- The device or the client, with the worker of a stage inside, waits for all writes. -/
  | awaitAll (s : Stage)
  deriving DecidableEq, Repr

/-- What an action is for the journal. -/
def Action.onJournal : Action → Journal.Action
  | .plain a => a
  | .request _ ids => .submit ids
  | .awaitAll _ => .awaitAll

/-- Whether an action has to wait until the device or the client returns. -/
def withholds (h : Hosted) : Journal.Action → Bool
  | .act (.worker s) => h.isInside s
  | _ => false

/-- The device or the client calls the journal, if a worker can be inside and no call of theirs is
under way there. -/
def callBack (h : Hosted) (s : Stage) (a : Journal.Action) : Option (Hosted × List Event) :=
  if h.journal.isHosting s && !h.isInside s then
    (h.journal.step a).map fun (j, es) =>
      -- A new caller gets the next number.
      ({ journal := j, within := h.within.set s (some h.journal.callers.length) }, es)
  else none

/-- What an action does and the events that it yields; none if it is not possible. -/
def step (h : Hosted) : Action → Option (Hosted × List Event)
  | .plain a =>
    if h.withholds a then none
    else (h.journal.step a).map fun (j, es) => ({ h with journal := j }, es)
  | .request s ids => h.callBack s (.submit ids)
  | .awaitAll s => h.callBack s .awaitAll

end Hosted

end WriteAhead.Journal
