import WriteAhead.Proofs.Queue.Monitor

/-!
# Runs of a queue

Any number of callers push, pop and close in any interleaving: a step is one critical section or one
notification of one of them. `Monitor.notify` wakes the caller that has slept longest; which of
several sleepers it is must not matter, so a `Step` may wake any of them. `Turn` says once what a
step can do, and every invariant of a run is a case analysis of it.

## Key results

- `Step.turn`: what a step can do
- `Run.invariant`: what a new queue has and every turn keeps holds throughout a run
-/

namespace WriteAhead.Queue

variable {κ α : Type}

/-- Whether a notification wakes a single caller, and one with this want. -/
def Signal.wakesOne : Signal → Want α → Bool
  | .room, want => want.isPush
  | .item, want => want.isPop
  | .noMoreItems, _ | .noMoreRoom, _ => false

namespace Monitor

/-- A caller has sent the first notification that it owed, and of the sleepers it woke the one
between `before` and `after`. -/
def wake [DecidableEq κ] (m : Monitor κ α) (k : κ) (before : List (κ × Want α)) (c : κ × Want α)
    (after : List (κ × Want α)) : Monitor κ α :=
  { m with
    waiters := ⟨before ++ after, m.waiters.woken ++ [c]⟩
    owed := m.owed.eraseP (·.1 = k) }

variable [DecidableEq κ] {m m' : Monitor κ α} {a : Action κ α} {r : Option (Reply α)}

/-- One step of some caller, with the answer that it gives. -/
inductive Step (m : Monitor κ α) : Action κ α → Monitor κ α → Option (Reply α) → Prop where
  | plain {a : Action κ α} {m' : Monitor κ α} {r : Option (Reply α)}
      (hstep : m.step a = some (m', r)) : Step m a m' r
  /-- A notification for one caller wakes any of those that sleep for it. -/
  | wake {k : κ} {sig : Signal} {c : κ × Want α} {before after : List (κ × Want α)}
      (hcounted : k ∉ m.uncounted) (howes : m.owed.find? (·.1 = k) = some (k, sig))
      (hasleep : m.waiters.asleep = before ++ c :: after) (hone : sig.wakesOne c.2 = true) :
      Step m (.deliver k) (m.wake k before c after) none

/-- What a step can do: a critical section of a push or a pop, nothing, the two parts of a pop that
does not wait, a close, a notification. -/
inductive Turn (m : Monitor κ α) : Monitor κ α → Prop where
  | visited {k : κ} {want : Want α} {first : Bool} {m' : Monitor κ α} {r : Option (Reply α)}
      (hvisit : m.Visit k want first m' r) : Turn m m'
  | unchanged : Turn m m
  /-- The oldest value is taken without waiting, and is still to be counted. -/
  | taken {k : κ} {v : α} {rest : List α} (hitems : m.queue.items = v :: rest) :
      Turn m ({ m with
        queue := { m.queue with items := rest }
        uncounted := k :: m.uncounted }.owe k .room)
  /-- A value that was taken without waiting is counted. -/
  | counted {k : κ} (hmem : k ∈ m.uncounted) :
      Turn m { m with queue := m.queue.countPop, uncounted := m.uncounted.erase k }
  | closed (k : κ) : Turn m (m.close k)
  | delivered {k : κ} {m' : Monitor κ α} (hdeliver : m.deliver k = some m') : Turn m m'
  | woke {k : κ} {sig : Signal} {c : κ × Want α} {before after : List (κ × Want α)}
      (howes : m.owed.find? (·.1 = k) = some (k, sig))
      (hasleep : m.waiters.asleep = before ++ c :: after) (hone : sig.wakesOne c.2 = true) :
      Turn m (m.wake k before c after)

/-- A `tryPush` is refused or is the critical section of a push that might have waited, since
`bring` decides as `offer` does. -/
private theorem turn_tryPush (m : Monitor κ α) (k : κ) (v : α) : m.Turn (m.tryPush k v).1 := by
  unfold tryPush
  rw [← bring_eq_offer]
  split
  · rename_i q hbring
    have hattempt : m.attempt k (.push v) true =
        ({ m with queue := q }.owe k .item, some .pushed) := by simp only [attempt, hbring]
    exact .visited ⟨m.waiters, .first, hattempt⟩
  · exact .unchanged
  · exact .unchanged

omit [DecidableEq κ] in
/-- A `tryPop` takes the oldest value, which it has still to count, or finds the queue empty. -/
theorem tryPop_cases (m : Monitor κ α) (k : κ) :
    (∃ v rest, m.queue.items = v :: rest ∧ m.tryPop k =
        ({ m with
          queue := { m.queue with items := rest }
          uncounted := k :: m.uncounted }.owe k .room, .item v)) ∨
      m.queue.items = [] ∧ m.tryPop k = (m, .nothing) := by
  unfold tryPop remove?
  cases hitems : m.queue.items with
  | nil => exact .inr ⟨rfl, rfl⟩
  | cons v rest => exact .inl ⟨v, rest, rfl, rfl⟩

/-- A caller that counts a value has taken one without waiting, and is in `uncounted` until then. -/
theorem count_eq_some {k : κ} (h : m.count k = some m') : k ∈ m.uncounted ∧
    m' = { m with queue := m.queue.countPop, uncounted := m.uncounted.erase k } := by
  obtain ⟨hmem, heq⟩ := Option.ite_none_right_eq_some.mp h
  exact ⟨hmem, (Option.some.inj heq).symm⟩

/-- What a `Step` can do is a `Turn`: the one place where the actions of callers are taken apart. -/
theorem Step.turn (h : m.Step a m' r) : m.Turn m' := by
  cases h with
  | wake _ howes hasleep hone => exact .woke howes hasleep hone
  -- Each action says when it is possible; the guards go, and the section remains.
  | plain hstep =>
    cases a with
    | enter k want =>
      obtain ⟨-, henter⟩ := Option.ite_none_right_eq_some.mp hstep
      exact .visited (visit_enter (Option.some.inj henter))
    | tryPush k v =>
      obtain ⟨-, hpush⟩ := Option.ite_none_right_eq_some.mp hstep
      obtain ⟨rfl, -⟩ := Prod.mk.inj (Option.some.inj hpush)
      exact turn_tryPush m k v
    -- What it takes is counted on a later turn, so it is a turn of its own kind.
    | tryPop k =>
      obtain ⟨-, hpop⟩ := Option.ite_none_right_eq_some.mp hstep
      obtain ⟨rfl, -⟩ := Prod.mk.inj (Option.some.inj hpop)
      rcases m.tryPop_cases k with ⟨v, rest, hitems, heq⟩ | ⟨-, heq⟩
      · rw [heq]
        exact .taken hitems
      · rw [heq]
        exact .unchanged
    | close k =>
      obtain ⟨-, hclose⟩ := Option.ite_none_right_eq_some.mp hstep
      obtain ⟨rfl, -⟩ := Prod.mk.inj (Option.some.inj hclose)
      exact .closed k
    | recheck k =>
      obtain ⟨want, -, hvisit⟩ := visit_recheck hstep
      exact .visited hvisit
    | count k =>
      obtain ⟨m₁, hcount, heq⟩ := Option.map_eq_some_iff.mp hstep
      obtain ⟨rfl, -⟩ := Prod.mk.inj heq
      obtain ⟨hmem, rfl⟩ := count_eq_some hcount
      exact .counted hmem
    | deliver k =>
      obtain ⟨-, hstep⟩ := Option.ite_none_left_eq_some.mp hstep
      obtain ⟨m₁, hdeliver, heq⟩ := Option.map_eq_some_iff.mp hstep
      obtain ⟨rfl, -⟩ := Prod.mk.inj heq
      exact .delivered hdeliver

/-- The actions of callers, each with its answer if it gave one, lead from a queue at which nobody
waits to `m`. -/
inductive Run (q : Queue α) : List (Action κ α × Option (Reply α)) → Monitor κ α → Prop where
  | start : Run q [] { queue := q }
  | step {turns : List (Action κ α × Option (Reply α))} {m m' : Monitor κ α} {a : Action κ α}
      {r : Option (Reply α)} (hrun : Run q turns m) (hstep : m.Step a m' r) :
      Run q (turns ++ [(a, r)]) m'

/-- What a queue has at which nobody waits, and every `Turn` keeps, holds throughout a run. -/
theorem Run.invariant {q : Queue α} {turns : List (Action κ α × Option (Reply α))}
    {P : Monitor κ α → Prop} (h : Run q turns m) (hstart : P { queue := q })
    (hturn : ∀ m m', P m → m.Turn m' → P m') : P m := by
  induction h with
  | start => exact hstart
  | step hrun hstep ih => exact hturn _ _ ih hstep.turn

end Monitor

end WriteAhead.Queue
