/-!
# Callers waiting at a monitor

A caller that cannot go on sleeps at a condition variable until a notification wakes it; then it
looks again, and may sleep once more. `Waiters` keeps the sleeping callers of all condition
variables of one monitor, each with what it wants, and the woken ones that have still to look again.

Both are in order of arrival. `notifyOne` assumes a condition variable that wakes whoever has slept
longest, as one with a queue of parked threads does. Where another choice, or a caller that wakes
without a notification, makes a difference, a theory has steps for them beside `notifyOne`; `stir`
is such a step.
-/

namespace WriteAhead

/-- The callers waiting at a monitor, each with what it wants there. -/
structure Waiters (κ ω : Type) where
  /-- Callers asleep, the one that has slept longest first. -/
  asleep : List (κ × ω) := []
  /-- Callers woken that have not looked again yet. -/
  woken : List (κ × ω) := []
  deriving DecidableEq, Repr, Inhabited

namespace Waiters

variable {κ ω : Type}

/-- A caller falls asleep. -/
def sleep (w : Waiters κ ω) (k : κ) (want : ω) : Waiters κ ω :=
  { w with asleep := w.asleep ++ [(k, want)] }

/-- Wakes one of the callers whose want is `p`: the one that has slept longest. -/
def notifyOne (w : Waiters κ ω) (p : ω → Bool) : Waiters κ ω :=
  match w.asleep.find? (p ·.2) with
  | some c => ⟨w.asleep.eraseP (p ·.2), w.woken ++ [c]⟩
  | none => w

/-- Wakes every caller whose want is `p`. -/
def notifyAll (w : Waiters κ ω) (p : ω → Bool) : Waiters κ ω :=
  ⟨w.asleep.filter (!p ·.2), w.woken ++ w.asleep.filter (p ·.2)⟩

variable [DecidableEq κ]

/-- What a woken caller wants; none if the caller is not one of the woken. -/
def wokenWant? (w : Waiters κ ω) (k : κ) : Option ω :=
  (w.woken.find? (·.1 = k)).map (·.2)

/-- A woken caller looks again: it is no longer waiting. -/
def resume (w : Waiters κ ω) (k : κ) : Waiters κ ω :=
  { w with woken := w.woken.eraseP (·.1 = k) }

/-- Whether a caller is asleep. -/
def isAsleep (w : Waiters κ ω) (k : κ) : Bool := w.asleep.any (·.1 = k)

/-- A sleeping caller wakes without a notification. -/
def stir (w : Waiters κ ω) (k : κ) : Waiters κ ω :=
  ⟨w.asleep.filter (·.1 ≠ k), w.woken ++ w.asleep.filter (·.1 = k)⟩

end Waiters

end WriteAhead
