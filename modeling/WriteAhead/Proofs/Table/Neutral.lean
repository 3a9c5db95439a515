import WriteAhead.Proofs.Table.Monitor

/-!
# Changes of a table that its callers do not notice

A change of tables is neutral if every operation but a mark gives the same answer on the changed
table, and leaves the changed result. All that the callers of a table get to see comes from these
answers, so a neutral change passes through each step of theirs. What a mark makes of the change is
left to those who have one.

## Key results

- `Neutral`: the operations of the table, one by one
- `Monitor.step_change`: a step that is no mark does not notice a neutral change
-/

namespace WriteAhead.Table

/-- The answer to a claim, with the table in it changed. -/
def Claim.map (f : Table → Table) : Claim → Claim
  | granted t g => granted (f t) g
  | busy => busy
  | refused e => refused e

/-- No operation but a mark notices the change `f`. -/
structure Neutral (f : Table → Table) : Prop where
  capacity_eq : ∀ t, (f t).capacity = t.capacity
  isShutDown_eq : ∀ t, (f t).isShutDown = t.isShutDown
  isDrained_eq : ∀ t, (f t).isDrained = t.isDrained
  completed_eq : ∀ t id, ((f t).slot? id).map (·.completed) = (t.slot? id).map (·.completed)
  acquire_eq : ∀ t id, (f t).acquire id = (t.acquire id).map f
  recordIssue_eq : ∀ t id,
    (f t).recordIssue id = (t.recordIssue id).map fun (t', g) => (f t', g)
  recordCompletion_eq : ∀ t id op g, (f t).recordCompletion id op g =
    (f (t.recordCompletion id op g).1, (t.recordCompletion id op g).2)
  shutDown_eq : ∀ t, (f t).shutDown = f t.shutDown

namespace Monitor

variable {κ : Type} {f : Table → Table}

/-- The monitor with its table changed and the same callers. -/
def change (m : Monitor κ) (f : Table → Table) : Monitor κ := { m with table := f m.table }

section

variable (hf : Neutral f) (m : Monitor κ) (id : WriteId)
include hf

/-- A critical section (`attempt`) yields the same on the changed table: it reads no more of the
table than the answers that `Neutral` fixes. -/
theorem attempt_change (k : κ) (want : Want) :
    (m.change f).attempt k want = ((m.attempt k want).1.change f, (m.attempt k want).2) := by
  unfold attempt change
  cases want with
  | slot id =>
    simp only [hf.acquire_eq]
    cases m.table.acquire id <;> rfl
  | join id stage =>
    simp only [hf.capacity_eq, hf.isShutDown_eq]
    have hcompleted := hf.completed_eq m.table id
    cases hs : m.table.slot? id with
    | none =>
      rw [hs, Option.map_none, Option.map_eq_none_iff] at hcompleted
      rw [hcompleted]
    | some s =>
      rw [hs] at hcompleted
      obtain ⟨s', hs', heq⟩ := Option.map_eq_some_iff.mp hcompleted
      -- The join is judged by what completed, and this is the same in both slots.
      simp only [hs', heq]
      split
      · rfl
      · split <;> rfl
  | drain =>
    simp only [hf.isDrained_eq]
    split <;> rfl

/-- Who is woken by a release depends on `isDrained` only, so `notifyRelease` passes the change
through. -/
theorem notifyRelease_change (released : Bool) :
    (m.change f).notifyRelease id released = (m.notifyRelease id released).change f := by
  unfold notifyRelease change
  simp only [hf.isDrained_eq]
  split <;> rfl

/-- By `recordIssue` an operation is put on record with the same generation, or the same fault,
under the change. -/
theorem recordIssue_change : (m.change f).recordIssue id =
    (m.recordIssue id).map fun (m', g) => (m'.change f, g) := by
  unfold recordIssue change
  rw [hf.recordIssue_eq]
  cases m.table.recordIssue id <;> rfl

/-- By `recordCompletion` a report is judged the same and wakes the same callers under the
change. -/
theorem recordCompletion_change (op : Operation) (g : Option Generation) :
    (m.change f).recordCompletion id op g =
      ((m.recordCompletion id op g).1.change f, (m.recordCompletion id op g).2) := by
  have htable : (m.change f).table = f m.table := rfl
  unfold recordCompletion
  rw [htable, hf.recordCompletion_eq]
  generalize m.table.recordCompletion id op g = r
  obtain ⟨t, v⟩ := r
  cases v with
  | unknown | stale | duplicate => rfl
  | accepted joined unissued released =>
    simp only
    -- Only an accepted report notifies anybody.
    rw [← notifyRelease_change hf]
    rfl

end

variable [DecidableEq κ]

/-- A step of `Monitor.step` that is no mark does not notice a neutral change: it yields the same,
and leaves the changed monitor. -/
theorem step_change (hf : Neutral f) (m : Monitor κ) {a : Action κ} (ha : ∀ id, a ≠ .mark id) :
    (m.change f).step a = (m.step a).map fun (m', y) => (m'.change f, y) := by
  cases a with
  | enter k want =>
    -- Whether a caller is free and what it wants is known from `waiters`, which the change leaves
    -- alone.
    have hfree : (m.change f).isFree k = m.isFree k := rfl
    simp only [step, enter, hfree, attempt_change hf]
    split <;> rfl
  | recheck k =>
    have hwant : (m.change f).waiters = m.waiters := rfl
    simp only [step, recheck, hwant]
    cases m.waiters.wokenWant? k with
    | none => rfl
    | some want =>
      have hattempt := attempt_change hf { m with waiters := m.waiters.resume k } k want
      exact congrArg (fun p => some (p.1, Yield.ofReply? p.2)) hattempt
  | stir k =>
    have hasleep : (m.change f).waiters = m.waiters := rfl
    simp only [step, hasleep]
    split <;> rfl
  | issue id =>
    simp only [step, recordIssue_change hf]
    cases m.recordIssue id <;> rfl
  | complete id op g =>
    simp only [step, recordCompletion_change hf]
    rfl
  | mark id => exact absurd rfl (ha id)
  | shutDown =>
    simp only [step, shutDown, change, hf.shutDown_eq]
    rfl

end Monitor

end WriteAhead.Table
