import WriteAhead.Proofs.Journal.Run
import WriteAhead.Proofs.Queue.Monitor
import WriteAhead.Proofs.Table.Monitor

/-!
# Who waits where in a journal

The phase of an actor says whether it waits, where and for what (`queueWant?`, `tableWant?`), and a
monitor keeps its own list of those who wait there. In a run the two agree (`Attended`). So an actor
that is woken looks again for what its phase says, and the cases of `Change` are all that a step can
come to.

## Key results

- `Rephases.queueWant?`, `Recalls.queueWant?` and their like: what an actor wants when one goes on
- `Attended.visit_queue`, `Attended.visit_table`: a visit that fits the phases keeps attendance
-/

namespace WriteAhead

/-! ## Wants -/

/-- What the worker of a stage wants from a queue while it waits. -/
def Phase.queueWant? (s : Stage) : Phase → Option (Stage × Queue.Want WriteId)
  | .awaitingItem => some (s, .pop)
  | .awaitingRoom id => s.next.map (·, .push id)
  | _ => none

/-- What the worker of a stage wants from the table while it waits. -/
def Phase.tableWant? (s : Stage) : Phase → Option Table.Want
  | .awaitingJoin id => some (.join id s)
  | _ => none

/-- What a caller wants from a queue while it waits. -/
def Caller.queueWant? : Caller → Option (Stage × Queue.Want WriteId)
  | .submitter (.awaitingRoom id) _ _ => some (.metadata, .push id)
  | _ => none

/-- What a caller wants from the table while it waits. -/
def Caller.tableWant? : Caller → Option Table.Want
  | .submitter (.awaitingSlot id) _ _ => some (.slot id)
  | .drainer .awaiting => some .drain
  | _ => none

namespace Journal

variable {j j' : Journal} {a : Actor} {s t : Stage}

/-- The queue at which an actor waits, and what for. -/
def queueWant? (j : Journal) : Actor → Option (Stage × Queue.Want WriteId)
  | .worker s => (j.workers.get s).phase.queueWant? s
  | .caller k => j.callers[k]?.bind Caller.queueWant?
  | .closer => none

/-- What an actor waits for at the table. -/
def tableWant? (j : Journal) : Actor → Option Table.Want
  | .worker s => (j.workers.get s).phase.tableWant? s
  | .caller k => j.callers[k]?.bind Caller.tableWant?
  | .closer => none

/-- The monitors know exactly the actors that wait at them. -/
structure Attended (j : Journal) : Prop where
  queues : ∀ s, (j.queues.get s).waiters.Matches fun a want => j.queueWant? a = some (s, want)
  table : j.table.waiters.Matches fun a want => j.tableWant? a = some want

/-! ## Wants after an actor has moved -/

/-- `j'` is `j` but for the phase of one worker, the monitors and the tokens. -/
def Rephases (j j' : Journal) (s : Stage) (p : Phase) : Prop :=
  j'.callers = j.callers ∧
    ∀ t, (j'.workers.get t).phase = if t = s then p else (j.workers.get t).phase

/-- What `setPhase` changes is the phase of one worker. -/
theorem rephases_setPhase (j : Journal) (s : Stage) (p : Phase) :
    j.Rephases (j.setPhase s p) s p := by
  refine ⟨rfl, fun t => ?_⟩
  rw [setPhase, PerStage.get_set]
  split <;> rfl

/-- A worker that calls `advance` comes to push its write on, or to tell the client of it after the
last stage. -/
theorem rephases_advance (j : Journal) (s : Stage) (id : WriteId) :
    j.Rephases (j.advance s id).1 s (if s.next = none then .notifying id else .pushing id) := by
  refine ⟨rfl, fun t => ?_⟩
  rw [advance, PerStage.get_set]
  by_cases ht : t = s
  · cases s <;> simp [ht, Stage.next]
  · simp [ht]

/-- Only the `queueWant?` of one worker changes with its phase. -/
theorem Rephases.queueWant? {p : Phase} (h : j.Rephases j' s p) (a : Actor) :
    j'.queueWant? a = if a = .worker s then p.queueWant? s else j.queueWant? a := by
  -- The phase decides what a worker wants, the place in `callers` what a caller wants.
  cases a with
  | worker t =>
    simp only [Journal.queueWant?, h.2, Actor.worker.injEq]
    split
    · rename_i ht
      rw [ht]
    · rfl
  | caller k => simp [Journal.queueWant?, h.1]
  | closer => rfl

/-- Only the `tableWant?` of one worker changes with its phase. -/
theorem Rephases.tableWant? {p : Phase} (h : j.Rephases j' s p) (a : Actor) :
    j'.tableWant? a = if a = .worker s then p.tableWant? s else j.tableWant? a := by
  cases a with
  | worker t =>
    simp only [Journal.tableWant?, h.2, Actor.worker.injEq]
    split
    · rename_i ht
      rw [ht]
    · rfl
  | caller k => simp [Journal.tableWant?, h.1]
  | closer => rfl

/-- `j'` is `j` but for one caller and the monitors. -/
def Recalls (j j' : Journal) (k : Nat) (c : Caller) : Prop :=
  j'.workers = j.workers ∧ k < j.callers.length ∧ j'.callers = j.callers.set k c

/-- What `setCaller` changes is one caller. -/
theorem recalls_setCaller {k : Nat} {c₀ : Caller} (h : j.callers[k]? = some c₀) (c : Caller) :
    j.Recalls (j.setCaller k c) k c :=
  ⟨rfl, (List.getElem?_eq_some_iff.mp h).1, rfl⟩

/-- Only the `queueWant?` of one caller changes with where it stands. -/
theorem Recalls.queueWant? {k : Nat} {c : Caller} (h : j.Recalls j' k c) (a : Actor) :
    j'.queueWant? a = if a = .caller k then c.queueWant? else j.queueWant? a := by
  obtain ⟨hworkers, hlt, hcallers⟩ := h
  cases a with
  | worker s => simp [Journal.queueWant?, hworkers]
  | caller i =>
    simp only [Journal.queueWant?, hcallers, Actor.caller.injEq]
    by_cases hi : i = k
    · subst hi
      simp [hlt]
    · simp [hi, Ne.symm hi]
  | closer => rfl

/-- Only the `tableWant?` of one caller changes with where it stands. -/
theorem Recalls.tableWant? {k : Nat} {c : Caller} (h : j.Recalls j' k c) (a : Actor) :
    j'.tableWant? a = if a = .caller k then c.tableWant? else j.tableWant? a := by
  obtain ⟨hworkers, hlt, hcallers⟩ := h
  cases a with
  | worker s => simp [Journal.tableWant?, hworkers]
  | caller i =>
    simp only [Journal.tableWant?, hcallers, Actor.caller.injEq]
    by_cases hi : i = k
    · subst hi
      simp [hlt]
    · simp [hi, Ne.symm hi]
  | closer => rfl

/-! ## Attendance kept -/

/-- At the start nobody waits anywhere, so a new journal is `Attended`. -/
theorem attended_create (c : Config) : (create c).Attended := by
  have hidle : ∀ s, ((create c).workers.get s).phase = .popping := by intro s; cases s <;> rfl
  have hqueueWant : ∀ a, (create c).queueWant? a = none := by
    intro a
    cases a with
    | worker s => rw [queueWant?, hidle]; rfl
    | caller k => rfl
    | closer => rfl
  have htableWant : ∀ a, (create c).tableWant? a = none := by
    intro a
    cases a with
    | worker s => rw [tableWant?, hidle]; rfl
    | caller k => rfl
    | closer => rfl
  -- Nobody wants anything and nobody is among the waiters, so the two agree everywhere.
  refine ⟨fun s => ⟨?_, fun a want => ?_⟩, ?_, fun a want => ?_⟩
  · simp [create, Waiters.all]
  · rw [hqueueWant]
    simp [create, Waiters.all]
  · simp [create, Waiters.all]
  · rw [htableWant]
    simp [create, Waiters.all]

/-- A step that at most wakes callers and changes no want keeps a journal `Attended`. -/
theorem Attended.of_perm (h : j.Attended)
    (hqueues : ∀ s, (j'.queues.get s).waiters.all.Perm (j.queues.get s).waiters.all)
    (htable : j'.table.waiters.all.Perm j.table.waiters.all)
    (hqueueWant : ∀ a, j'.queueWant? a = j.queueWant? a)
    (htableWant : ∀ a, j'.tableWant? a = j.tableWant? a) : j'.Attended := by
  refine ⟨fun s => ((h.queues s).perm (hqueues s)).congr fun a want => ?_,
    (h.table.perm htable).congr fun a want => ?_⟩
  · rw [hqueueWant]
  · rw [htableWant]

/-- An actor that looks at a queue (`Visit`) waits there afterwards exactly if it was not answered.
All others wait where they did. -/
theorem Attended.visit_queue {want : Queue.Want WriteId} {first : Bool}
    {m : Queue.Monitor Actor WriteId} {r : Option (Queue.Reply WriteId)} (h : j.Attended)
    (hvisit : (j.queues.get s).Visit a want first m r)
    (hqueues : j'.queues = j.queues.set s m) (htable : j'.table.waiters = j.table.waiters)
    (hbefore : j.queueWant? a = if first then none else some (s, want))
    (hafter : j'.queueWant? a = if r = none then some (s, want) else none)
    (hothers : ∀ b ≠ a, j'.queueWant? b = j.queueWant? b)
    (htableWant : ∀ b, j'.tableWant? b = j.tableWant? b) : j'.Attended := by
  constructor
  · intro t
    rw [hqueues, PerStage.get_set]
    split
    · -- At the queue itself the actor is taken out first and put back if it was not answered.
      rename_i hts
      subst hts
      obtain ⟨w, hlook, hwaiters⟩ := hvisit.waiters
      rw [hwaiters]
      have hlooking := (h.queues t).look hlook fun hfirst want' hwant => by
        rw [hbefore, hfirst] at hwant
        exact nomatch hwant
      cases r with
      | none =>
        rw [if_pos rfl] at hafter ⊢
        refine (hlooking.sleep fun _ hwant => hwant.1 rfl).congr fun b want' => ?_
        by_cases hb : b = a
        · subst hb
          rw [hafter]
          simp [eq_comm]
        · simp [hb, hothers b hb]
      | some r =>
        rw [if_neg nofun] at hafter ⊢
        refine hlooking.congr fun b want' => ?_
        by_cases hb : b = a
        · subst hb
          rw [hafter]
          simp
        · simp [hb, hothers b hb]
    · -- At another queue the actor does not wait, neither before nor after.
      rename_i hts
      refine (h.queues t).congr fun b want' => ?_
      by_cases hb : b = a
      · subst hb
        rw [hbefore, hafter]
        split <;> split <;> simp [Ne.symm hts]
      · rw [hothers b hb]
  · rw [htable]
    exact h.table.congr fun b want' => by rw [htableWant b]

/-- An actor that looks at the table (`Visit`) waits there afterwards exactly if it was not
answered. All others wait where they did. -/
theorem Attended.visit_table {want : Table.Want} {first : Bool} {m : Table.Monitor Actor}
    {r : Option Table.Reply} (h : j.Attended) (hvisit : j.table.Visit a want first m r)
    (hqueues : j'.queues = j.queues) (htable : j'.table = m)
    (hbefore : j.tableWant? a = if first then none else some want)
    (hafter : j'.tableWant? a = if r = none then some want else none)
    (hothers : ∀ b ≠ a, j'.tableWant? b = j.tableWant? b)
    (hqueueWant : ∀ b, j'.queueWant? b = j.queueWant? b) : j'.Attended := by
  constructor
  · intro t
    rw [hqueues]
    exact (h.queues t).congr fun b want' => by rw [hqueueWant b]
  · rw [htable]
    -- As at a queue: the actor is taken out first and put back if it was not answered.
    obtain ⟨w, hlook, hwaiters⟩ := hvisit.waiters
    rw [hwaiters]
    have hlooking := h.table.look hlook fun hfirst want' hwant => by
      rw [hbefore, hfirst] at hwant
      exact nomatch hwant
    cases r with
    | none =>
      rw [if_pos rfl] at hafter ⊢
      refine (hlooking.sleep fun _ hwant => hwant.1 rfl).congr fun b want' => ?_
      by_cases hb : b = a
      · subst hb
        rw [hafter]
        simp [eq_comm]
      · simp [hb, hothers b hb]
    | some r =>
      rw [if_neg nofun] at hafter ⊢
      refine hlooking.congr fun b want' => ?_
      by_cases hb : b = a
      · subst hb
        rw [hafter]
        simp
      · simp [hb, hothers b hb]

end Journal

end WriteAhead
