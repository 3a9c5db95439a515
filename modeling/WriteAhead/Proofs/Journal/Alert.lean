import WriteAhead.Proofs.Journal.Chronicle
import WriteAhead.Proofs.Journal.Projection

/-!
# Nobody in a journal sleeps for ever

In every run, whoever sleeps at a queue or at the table does so rightly. At the table this needs
that no two workers wait for a join in one slot, since a join that holds wakes only one of them:
each write has a single place. At the queues it needs no more than that notifications owed are sent
in the end.

## Key results

- `Run.joinsApart`: at most one caller waits for a join in each slot
- `Run.watchful`: the queues and the table of a run are alert
-/

namespace WriteAhead.Journal

variable {c : Config} {as : List Action} {j j' : Journal} {es es' : List Event} {s t : Stage}
  {a : Action}

/-! ## Joins apart -/

/-- Only the worker of a stage waits for its join: `tableWant?` says so for nobody else. -/
theorem tableWant?_join {b : Actor} {id : WriteId} (h : j.tableWant? b = some (.join id s)) :
    b = .worker s ∧ (j.workers.get s).phase = .awaitingJoin id := by
  cases b with
  | worker t =>
    simp only [tableWant?] at h
    cases hphase : (j.workers.get t).phase with
    | awaitingJoin i =>
      rw [hphase] at h
      obtain ⟨rfl, rfl⟩ := Table.Want.join.inj (Option.some.inj h)
      exact ⟨rfl, hphase⟩
    | _ => rw [hphase] at h; cases h
  | caller k =>
    obtain ⟨caller, -, hwant⟩ := Option.bind_eq_some_iff.mp h
    cases caller with
    | submitter point left answers => cases point <;> cases hwant
    | drainer point => cases point <;> cases hwant
  | closer => cases h

/-- At most one caller waits for a join in each slot, since no two workers have writes of one slot:
`JoinsApart` of the table holds. -/
theorem Run.joinsApart (hrun : Run c as j es) : j.table.JoinsApart := by
  have hmatches := hrun.attended.table
  have hkeys : j.table.waiters.asleep.Pairwise fun x y => x.1 ≠ y.1 := by
    have hnodup := hmatches.nodup
    rw [Waiters.all, List.map_append, List.nodup_append] at hnodup
    exact List.pairwise_map.mp hnodup.1
  refine hkeys.imp_of_mem fun {x y} hx hy hne id hjoin => ?_
  by_contra hjoin'
  have hwant := (hmatches.mem_iff x.1 x.2).mp (List.mem_append_left _ hx)
  have hwant' := (hmatches.mem_iff y.1 y.2).mp (List.mem_append_left _ hy)
  obtain ⟨b, want⟩ := x
  obtain ⟨b', want'⟩ := y
  cases want with
  | slot | drain => cases hjoin
  | join i s =>
    cases want' with
    | slot | drain => exact hjoin' rfl
    | join i' s' =>
      -- Two sleepers are two workers, and the write of this slot is with one of them only.
      obtain rfl : i = id := by simpa [Table.Want.isJoin] using hjoin
      obtain rfl : i' = i := by simpa [Table.Want.isJoin] using hjoin'
      obtain ⟨rfl, hphase⟩ := tableWant?_join hwant
      obtain ⟨rfl, hphase'⟩ := tableWant?_join hwant'
      have hss : s' ≠ s := fun heq => hne (by rw [heq])
      have hplace (t : Stage) (ht : (j.workers.get t).phase = .awaitingJoin i') :
          (j.pipeline.workers.get t).place? t = some ⟨i', t.after, t.index, none⟩ := by
        rw [workers_pipeline, ht]
        rfl
      exact hrun.pipeline.chronicle.place_ne hss (hplace s hphase) (hplace s' hphase') rfl

/-! ## Alertness along a run -/

/-- Nobody sleeps through what it waits for; the queues have their room; and without a shutdown no
notification is owed by it. -/
structure Watchful (c : Config) (j : Journal) : Prop where
  queues : ∀ s, (j.queues.get s).IsAlert
  table : j.table.IsAlert
  capacity : ∀ s, (j.queue s).capacity = c.bufferSize
  closer : j.closing = .open → ∀ s, ∀ x ∈ (j.queues.get s).owed, x.1 ≠ .closer

/-- `j'` differs from `j` only in its workers, its callers and its tokens. -/
structure SameMonitors (j j' : Journal) : Prop where
  queues_eq : j'.queues = j.queues
  table_eq : j'.table = j.table
  closing_eq : j'.closing = j.closing

/-- Whether a journal is `Watchful` is up to its monitors. -/
theorem Watchful.congr (h : j.Watchful c) (hsame : j.SameMonitors j') : j'.Watchful c := by
  obtain ⟨hqueues, htable, hclosing⟩ := hsame
  refine ⟨?_, ?_, ?_, ?_⟩
  · rw [hqueues]; exact h.queues
  · rw [htable]; exact h.table
  · unfold queue; rw [hqueues]; exact h.capacity
  · rw [hqueues, hclosing]; exact h.closer

/-- What `afterPop` makes of an answer leaves the monitors. -/
theorem sameMonitors_afterPop (j : Journal) (s : Stage) (r : Option (Queue.Reply WriteId)) :
    j.SameMonitors (j.afterPop s r).1 := by
  cases r with
  | none => exact ⟨rfl, rfl, rfl⟩
  | some r => cases r <;> exact ⟨rfl, rfl, rfl⟩

/-- What `afterPush` makes of an answer leaves the monitors. -/
theorem sameMonitors_afterPush (j : Journal) (s t : Stage) (id : WriteId) (first : Bool)
    (r : Option (Queue.Reply WriteId)) : j.SameMonitors (j.afterPush s t id first r).1 := by
  cases r with
  | none => exact ⟨rfl, rfl, rfl⟩
  | some r => cases r <;> exact ⟨rfl, rfl, rfl⟩

/-- What `afterSubmit` makes of an answer leaves the monitors. -/
theorem sameMonitors_afterSubmit (j : Journal) (k : Nat) (id : WriteId) (left : List WriteId)
    (answers : List (Option JournalError)) (first : Bool) (r : Option (Queue.Reply WriteId)) :
    j.SameMonitors (j.afterSubmit k id left answers first r).1 := by
  cases r with
  | none => exact ⟨rfl, rfl, rfl⟩
  | some r => cases r <;> exact ⟨rfl, rfl, rfl⟩

/-- What `afterJoin` makes of an answer leaves the monitors. -/
theorem sameMonitors_afterJoin (j : Journal) (s : Stage) (id : WriteId) (r : Option Table.Reply) :
    j.SameMonitors (j.afterJoin s id r).1 := by
  cases r with
  | none => exact ⟨rfl, rfl, rfl⟩
  | some r => cases r <;> exact ⟨rfl, rfl, rfl⟩

/-- What `afterAcquire` makes of an answer leaves the monitors. -/
theorem sameMonitors_afterAcquire (j : Journal) (k : Nat) (id : WriteId) (left : List WriteId)
    (answers : List (Option JournalError)) (r : Option Table.Reply) :
    j.SameMonitors (j.afterAcquire k id left answers r).1 := by
  cases r with
  | none => exact ⟨rfl, rfl, rfl⟩
  | some r => cases r <;> exact ⟨rfl, rfl, rfl⟩

/-- What `afterDrain` makes of an answer leaves the monitors. -/
theorem sameMonitors_afterDrain (j : Journal) (k : Nat) (r : Option Table.Reply) :
    j.SameMonitors (j.afterDrain k r).1 := by
  cases r <;> exact ⟨rfl, rfl, rfl⟩

/-- A `setQueue` keeps the journal watchful if the new monitor is alert, has the same capacity, and
is owed nothing by the shutdown of a journal that is open. -/
private theorem Watchful.setQueue {m : Queue.Monitor Actor WriteId} (h : j.Watchful c)
    (halert : m.IsAlert) (hcapacity : m.queue.capacity = (j.queue s).capacity)
    (howed : j.closing = .open → ∀ x ∈ m.owed, x.1 ≠ .closer) : (j.setQueue s m).Watchful c := by
  refine ⟨fun t => ?_, h.table, fun t => ?_, fun hopen t => ?_⟩
  · rw [Journal.setQueue, PerStage.get_set]
    split
    · exact halert
    · exact h.queues t
  · rw [queue, Journal.setQueue, PerStage.get_set]
    split
    · rw [hcapacity]
      exact h.capacity s
    · exact h.capacity t
  · rw [Journal.setQueue, PerStage.get_set]
    split
    · exact howed hopen
    · exact h.closer hopen t

/-- An actor other than the `closer` that looks at a queue keeps the journal watchful. -/
private theorem Watchful.visit_queue {b : Actor} {want : Queue.Want WriteId} {first : Bool}
    {m : Queue.Monitor Actor WriteId} {r : Option (Queue.Reply WriteId)} (h : j.Watchful c)
    (hvisit : (j.queues.get s).Visit b want first m r) (hb : b ≠ .closer) :
    (j.setQueue s m).Watchful c := by
  refine h.setQueue (hvisit.isAlert (h.queues s)) hvisit.capacity_eq fun hopen x hx => ?_
  rcases hvisit.owed x hx with hx | ⟨rfl, -⟩
  · exact h.closer hopen s x hx
  · exact hb

private theorem Watchful.setTable {m : Table.Monitor Actor} (h : j.Watchful c)
    (halert : m.IsAlert) : ({ j with table := m } : Journal).Watchful c :=
  ⟨h.queues, halert, h.capacity, h.closer⟩

/-- A step keeps a journal watchful: one case for each `Change`. -/
theorem Change.watchful {step : Step} (hchange : Change j a step) (hrun : Run c as j es)
    (h : j.Watchful c) : step.1.Watchful c := by
  have hreport {m : Table.Monitor Actor} {id : WriteId} {op : Operation} {g : Option Generation}
      {v : Table.Verdict} (hreport : j.table.recordCompletion id op g = (m, v)) : m.IsAlert :=
    h.table.recordCompletion hrun.joinsApart hreport
  cases hchange with
  | @deliver b s m hdeliver =>
    refine h.setQueue ((h.queues s).deliver hdeliver) ?_ fun hopen x hx => ?_
    · rw [Queue.Monitor.deliver_queue hdeliver]
      rfl
    · exact h.closer hopen s x (Queue.Monitor.deliver_owed hdeliver hx)
  | pop hphase hvisit =>
    exact (h.visit_queue hvisit nofun).congr (sameMonitors_afterPop ..)
  | push hnext hphase hvisit =>
    exact (h.visit_queue hvisit nofun).congr (sameMonitors_afterPush ..)
  | submit hcaller hvisit =>
    exact (h.visit_queue hvisit nofun).congr (sameMonitors_afterSubmit ..)
  | join hphase hvisit =>
    exact (h.setTable (hvisit.isAlert h.table)).congr (sameMonitors_afterJoin ..)
  | acquire hcaller hvisit =>
    exact (h.setTable (hvisit.isAlert h.table)).congr (sameMonitors_afterAcquire ..)
  | drain hcaller hvisit =>
    exact (h.setTable (hvisit.isAlert h.table)).congr (sameMonitors_afterDrain ..)
  | record hphase =>
    unfold Journal.record
    split
    · rename_i m g hissue
      exact (h.setTable (h.table.recordIssue hissue)).congr ⟨rfl, rfl, rfl⟩
    · exact h.congr ⟨rfl, rfl, rfl⟩
  | @mark s id hphase =>
    unfold Journal.mark
    split
    · rename_i m released hmark
      exact (h.setTable (h.table.markCheckpointDone hmark)).congr ⟨rfl, rfl, rfl⟩
    · exact h.congr ⟨rfl, rfl, rfl⟩
  | @close s closing hclosing hnot =>
    -- The shutdown owes notifications now, but the journal is not open any more.
    have hset : (j.setQueue s ((j.queues.get s).close .closer)).Watchful c :=
      h.setQueue (.close _ _) rfl fun hopen => by rw [hclosing] at hopen; exact nomatch hopen
    exact ⟨hset.queues, hset.table, hset.capacity, fun hopen => absurd hopen hnot⟩
  | abort hclosing =>
    refine ⟨h.queues, fun x hx => ?_, h.capacity, nofun⟩
    rw [Table.Monitor.asleep_shutDown] at hx
    exact nomatch hx
  | gone hclosing hnot => exact ⟨h.queues, h.table, h.capacity, fun hopen => absurd hopen hnot⟩
  | complete hmem =>
    exact (h.setTable (hreport rfl)).congr ⟨rfl, rfl, rfl⟩
  | report id op => exact h.setTable (hreport rfl)
  | shutDown => exact ⟨h.queues, h.table, h.capacity, nofun⟩
  | shutDownAgain => exact h
  | hand | notify | arrive | await | drop | clientPanic | devicePanic =>
    exact h.congr ⟨rfl, rfl, rfl⟩

/-- The queues and the table of a run are alert (`Watchful`), so nobody sleeps there whom something
was done for. -/
theorem Run.watchful (hrun : Run c as j es) : j.Watchful c := by
  induction hrun with
  | start hstart =>
    obtain ⟨-, -, rfl, -⟩ := start_eq_ok hstart
    have hqueue (s : Stage) : (create c).queues.get s =
        { queue := { name := s.name, capacity := c.bufferSize } } := by cases s <;> rfl
    refine ⟨fun s => ?_, nofun, fun s => ?_, fun _ s => ?_⟩
    · rw [hqueue]
      exact Queue.Monitor.isAlert_of_nobody rfl
    · rw [queue, hqueue]
    · rw [hqueue]
      exact nofun
  | step hrun hstep ih => exact (change_of_step hrun.attended hstep).watchful hrun ih

end WriteAhead.Journal
