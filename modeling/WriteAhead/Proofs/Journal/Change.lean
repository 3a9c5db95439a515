import WriteAhead.Proofs.Journal.Attendance

/-!
# What a step of a journal comes to

`Change` lists what a step can come to, one case for each critical section. An actor that looks at a
monitor again differs from one that looks for the first time only in its phase, so each pair of them
is one case. That the woken one looks for what its phase says is what attendance is for.

## Key results

- `change_of_step`: what a step of an attended journal comes to
- `Run.attended`: the journal of a run is attended, so its steps are changes
-/

namespace WriteAhead.Journal

variable {j j' : Journal} {a : Actor} {s t : Stage}

/-- What a step comes to. -/
inductive Change (j : Journal) : Action → Step → Prop where
  /-- An actor sends a notification that it owes. -/
  | deliver {a : Actor} {s : Stage} {m : Queue.Monitor Actor WriteId}
      (hdeliver : (j.queues.get s).deliver a = some m) : Change j (.act a) (j.setQueue s m, [])
  /-- A worker looks for a write in its queue. -/
  | pop {s : Stage} {first : Bool} {m : Queue.Monitor Actor WriteId}
      {r : Option (Queue.Reply WriteId)}
      (hphase : (j.workers.get s).phase = if first then .popping else .awaitingItem)
      (hvisit : (j.queues.get s).Visit (.worker s) .pop first m r) :
      Change j (.act (.worker s)) ((j.setQueue s m).afterPop s r)
  /-- A worker puts an operation on record. -/
  | record {s : Stage} {id : WriteId} {op : Operation} {left : List Operation}
      (hphase : (j.workers.get s).phase = .issuing id (op :: left)) :
      Change j (.act (.worker s)) (j.record s id op left)
  /-- A worker hands a token to the device. -/
  | hand {s : Stage} {t : Token} {left : List Operation}
      (hphase : (j.workers.get s).phase = .handing t left) :
      Change j (.act (.worker s)) (j.hand s t (.issuing t.writeId left))
  /-- A worker looks whether the join of its stage holds. -/
  | join {s : Stage} {id : WriteId} {first : Bool} {m : Table.Monitor Actor}
      {r : Option Table.Reply}
      (hphase : (j.workers.get s).phase = if first then .issuing id [] else .awaitingJoin id)
      (hvisit : j.table.Visit (.worker s) (.join id s) first m r) :
      Change j (.act (.worker s)) ({ j with table := m }.afterJoin s id r)
  /-- A worker looks for room in the queue of the next stage. -/
  | push {s t : Stage} {id : WriteId} {first : Bool} {m : Queue.Monitor Actor WriteId}
      {r : Option (Queue.Reply WriteId)} (hnext : s.next = some t)
      (hphase : (j.workers.get s).phase = if first then .pushing id else .awaitingRoom id)
      (hvisit : (j.queues.get t).Visit (.worker s) (.push id) first m r) :
      Change j (.act (.worker s)) ((j.setQueue t m).afterPush s t id first r)
  /-- A worker tells the client of a write. -/
  | notify {s : Stage} {id : WriteId} (hphase : (j.workers.get s).phase = .notifying id) :
      Change j (.act (.worker s)) (j.notify s id false)
  /-- A worker marks the checkpoint of a write as done. -/
  | mark {s : Stage} {id : WriteId} (hphase : (j.workers.get s).phase = .marking id) :
      Change j (.act (.worker s)) (j.mark s id)
  /-- A submitter looks for the slot of its write. -/
  | acquire {k : Nat} {id : WriteId} {left : List WriteId} {answers : List (Option JournalError)}
      {first : Bool} {m : Table.Monitor Actor} {r : Option Table.Reply}
      (hcaller : j.callers[k]? = some (if first then .submitter .between (id :: left) answers
        else .submitter (.awaitingSlot id) left answers))
      (hvisit : j.table.Visit (.caller k) (.slot id) first m r) :
      Change j (.act (.caller k)) ({ j with table := m }.afterAcquire k id left answers r)
  /-- A submitter looks for room in the first queue. -/
  | submit {k : Nat} {id : WriteId} {left : List WriteId} {answers : List (Option JournalError)}
      {first : Bool} {m : Queue.Monitor Actor WriteId} {r : Option (Queue.Reply WriteId)}
      (hcaller : j.callers[k]? =
        some (.submitter (if first then .admitted id else .awaitingRoom id) left answers))
      (hvisit : (j.queues.get .metadata).Visit (.caller k) (.push id) first m r) :
      Change j (.act (.caller k)) ((j.setQueue .metadata m).afterSubmit k id left answers first r)
  /-- A caller looks whether no slot is in use. -/
  | drain {k : Nat} {first : Bool} {m : Table.Monitor Actor} {r : Option Table.Reply}
      (hcaller : j.callers[k]? = some (.drainer (if first then .entering else .awaiting)))
      (hvisit : j.table.Visit (.caller k) .drain first m r) :
      Change j (.act (.caller k)) ({ j with table := m }.afterDrain k r)
  /-- A shutdown closes a queue. -/
  | close {s : Stage} {closing : Closing} (hclosing : j.closing = .closing s)
      (hnot : closing ≠ .open) (hnext : closing = s.next.elim .aborting .closing) :
      Change j (.act .closer)
        ({ j.setQueue s ((j.queues.get s).close .closer) with closing }, [])
  /-- A shutdown shuts the table down. -/
  | abort (hclosing : j.closing = .aborting) (hsettled : j.deliver? .closer = none) :
      Change j (.act .closer)
        ({ j with table := j.table.shutDown, closing := .joining .metadata }, [])
  /-- A shutdown finds a worker gone. -/
  | gone {s : Stage} {closing : Closing} {es : List Event} (hclosing : j.closing = .joining s)
      (hnot : closing ≠ .open) (hes : ∀ e ∈ es, e = .workerCrashed s ∨ e = .shutDown)
      (hover : (j.workers.get s).phase.isOver = true)
      (hnext : closing = s.next.elim .done .joining) :
      Change j (.act .closer) ({ j with closing }, es)
  /-- A caller comes in that requests writes. -/
  | arrive {ids : List WriteId} (hadmits : j.admitsCalls = true) :
      Change j (.submit ids) (j.call (.submitter .between ids []), [])
  /-- A caller comes in that waits for all writes. -/
  | await (hadmits : j.admitsCalls = true) :
      Change j .awaitAll (j.call (.drainer .entering), [])
  /-- The device completes a token. -/
  | complete {t : Token} (hmem : t ∈ j.outstanding) : Change j (.complete t)
      ((j.complete t).1, [.reported t.writeId t.operation (some t.generation) (j.complete t).2])
  /-- The device drops a token. -/
  | drop {t : Token} (hmem : t ∈ j.outstanding) : Change j (.drop t)
      ({ j with outstanding := j.outstanding.erase t }, [.dropped t])
  /-- An operation is reported by write id. -/
  | report (id : WriteId) (op : Operation) : Change j (.report id op)
      ((j.report id op none).1, [.reported id op none (j.report id op none).2])
  /-- A shutdown begins. -/
  | shutDown (hopen : j.closing = .open) (hcalled : j.isCalled = false) :
      Change j .shutDown ({ j with closing := .closing .metadata }, [])
  /-- A second shutdown changes nothing. -/
  | shutDownAgain : Change j .shutDown (j, [])
  /-- The client panics. -/
  | clientPanic {id : WriteId} (hphase : (j.workers.get .checkpoint).phase = .notifying id) :
      Change j .clientPanic (j.notify .checkpoint id true)
  /-- The device panics. -/
  | devicePanic {s : Stage} {t : Token} {left : List Operation}
      (hphase : (j.workers.get s).phase = .handing t left) :
      Change j (.devicePanic s) (j.hand s t (.crashed .device))

/-! ## Every step is a change -/

/-- What `deliver?` comes to is a notification that the actor owes at some queue. -/
theorem deliver?_some {step : Step} (h : j.deliver? a = some step) :
    ∃ s m, (j.queues.get s).deliver a = some m ∧ step = (j.setQueue s m, []) := by
  unfold deliver? at h
  obtain ⟨s, -, hs⟩ := List.exists_of_findSome?_eq_some h
  obtain ⟨m, hm, rfl⟩ := Option.map_eq_some_iff.mp hs
  exact ⟨s, m, hm, rfl⟩

/-- Who has nothing to `deliver?` has nothing in `owed` at any queue. -/
theorem deliver?_eq_none_iff : j.deliver? a = none ↔ ∀ s, ∀ x ∈ (j.queues.get s).owed, x.1 ≠ a := by
  -- One queue first: `deliver` takes up the first entry of `owed` that is for `a`.
  have hqueue (s : Stage) :
      (((j.queues.get s).deliver a).map fun m => ((j.setQueue s m, []) : Step)) = none ↔
        ∀ x ∈ (j.queues.get s).owed, x.1 ≠ a := by
    rw [Option.map_eq_none_iff, Queue.Monitor.deliver, Option.map_eq_none_iff, List.find?_eq_none]
    simp
  rw [deliver?, List.findSome?_eq_none_iff]
  exact ⟨fun h s => (hqueue s).mp (h s (Stage.mem_all s)), fun h s _ => (hqueue s).mpr (h s)⟩

/-- Who owes nothing has nothing to deliver: `isOwing` and `deliver?` ask the same. -/
theorem isOwing_eq_false_iff : j.isOwing a = false ↔ j.deliver? a = none := by
  have hqueues (s : Stage) : j.queues.get s ∈ j.queues.toList := by
    cases s <;> simp [PerStage.toList, PerStage.get]
  rw [deliver?_eq_none_iff, isOwing, List.any_eq_false]
  simp only [List.any_eq_true, decide_eq_true_eq, not_exists, not_and]
  constructor
  · exact fun h s => h _ (hqueues s)
  · intro h m hm
    simp only [PerStage.toList, List.mem_cons, List.not_mem_nil, or_false] at hm
    rcases hm with rfl | rfl | rfl
    · exact h .metadata
    · exact h .commit
    · exact h .checkpoint

/-- A woken actor looks again at a queue for what its phase says: `recheck` is then a `Visit`. -/
private theorem Attended.recheck_queue {m : Queue.Monitor Actor WriteId}
    {r : Option (Queue.Reply WriteId)} {want : Queue.Want WriteId} (h : j.Attended)
    (hwant : j.queueWant? a = some (s, want))
    (hrecheck : (j.queues.get s).recheck a = some (m, r)) :
    (j.queues.get s).Visit a want false m r := by
  obtain ⟨want', hwoken, hvisit⟩ := Queue.Monitor.visit_recheck hrecheck
  have hwant' := (h.queues s).wokenWant hwoken
  rw [hwant, Option.some.injEq, Prod.mk.injEq] at hwant'
  rw [hwant'.2]
  exact hvisit

/-- A woken actor looks again at the table for what its phase says: `recheck` is then a `Visit`. -/
private theorem Attended.recheck_table {m : Table.Monitor Actor} {r : Option Table.Reply}
    {want : Table.Want} (h : j.Attended) (hwant : j.tableWant? a = some want)
    (hrecheck : j.table.recheck a = some (m, r)) : j.table.Visit a want false m r := by
  obtain ⟨want', hwoken, hvisit⟩ := Table.Monitor.visit_recheck hrecheck
  have hwant' := h.table.wokenWant hwoken
  rw [hwant, Option.some.injEq] at hwant'
  rw [hwant']
  exact hvisit

/-- What `workerStep` does is a `Change`: one case for each phase of the worker. -/
private theorem change_of_workerStep {step : Step} (h : j.Attended)
    (hstep : j.workerStep s = some step) : Change j (.act (.worker s)) step := by
  unfold workerStep at hstep
  simp only at hstep
  -- One case for each phase. Whether the look is the first is known from the visit only, so the
  -- phase is compared after it.
  split at hstep
  · -- popping
    rename_i hphase
    obtain rfl := Option.some.inj hstep
    exact .pop (by exact hphase) (Queue.Monitor.visit_enter rfl)
  · -- awaitingItem
    rename_i hphase
    obtain ⟨⟨m, r⟩, hrecheck, rfl⟩ := Option.map_eq_some_iff.mp hstep
    refine .pop (by exact hphase) (h.recheck_queue ?_ hrecheck)
    simp [queueWant?, hphase, Phase.queueWant?]
  · -- issuing
    rename_i hphase
    obtain rfl := Option.some.inj hstep
    exact .record hphase
  · -- issuing, with nothing left
    rename_i hphase
    obtain rfl := Option.some.inj hstep
    exact .join (by exact hphase) (Table.Monitor.visit_enter rfl)
  · -- handing
    rename_i hphase
    obtain rfl := Option.some.inj hstep
    exact .hand hphase
  · -- awaitingJoin
    rename_i hphase
    obtain ⟨⟨m, r⟩, hrecheck, rfl⟩ := Option.map_eq_some_iff.mp hstep
    refine .join (by exact hphase) (h.recheck_table ?_ hrecheck)
    simp [tableWant?, hphase, Phase.tableWant?]
  · -- pushing
    rename_i hphase
    obtain ⟨t, hnext, rfl⟩ := Option.map_eq_some_iff.mp hstep
    exact .push hnext (by exact hphase) (Queue.Monitor.visit_enter rfl)
  · -- awaitingRoom
    rename_i hphase
    obtain ⟨t, hnext, htail⟩ := Option.bind_eq_some_iff.mp hstep
    obtain ⟨⟨m, r⟩, hrecheck, rfl⟩ := Option.map_eq_some_iff.mp htail
    refine .push hnext (by exact hphase) (h.recheck_queue ?_ hrecheck)
    simp [queueWant?, hphase, Phase.queueWant?, hnext]
  · -- notifying
    rename_i hphase
    obtain rfl := Option.some.inj hstep
    exact .notify hphase
  · -- marking
    rename_i hphase
    obtain rfl := Option.some.inj hstep
    exact .mark hphase
  · cases hstep
  · cases hstep

/-- What `callerStep` does is a `Change`: one case for each place where a caller stands. -/
private theorem change_of_callerStep {k : Nat} {step : Step} (h : j.Attended)
    (hstep : j.callerStep k = some step) : Change j (.act (.caller k)) step := by
  unfold callerStep at hstep
  obtain ⟨c, hcaller, hstep⟩ := Option.bind_eq_some_iff.mp hstep
  have hqueueWant : j.queueWant? (.caller k) = c.queueWant? := by simp [queueWant?, hcaller]
  have htableWant : j.tableWant? (.caller k) = c.tableWant? := by simp [tableWant?, hcaller]
  split at hstep
  · cases hstep
  · -- between two requests
    obtain rfl := Option.some.inj hstep
    exact .acquire (by exact hcaller) (Table.Monitor.visit_enter rfl)
  · -- awaitingSlot
    obtain ⟨⟨m, r⟩, hrecheck, rfl⟩ := Option.map_eq_some_iff.mp hstep
    exact .acquire (by exact hcaller) (h.recheck_table htableWant hrecheck)
  · -- admitted
    obtain rfl := Option.some.inj hstep
    exact .submit (by exact hcaller) (Queue.Monitor.visit_enter rfl)
  · -- awaitingRoom
    obtain ⟨⟨m, r⟩, hrecheck, rfl⟩ := Option.map_eq_some_iff.mp hstep
    exact .submit (by exact hcaller) (h.recheck_queue hqueueWant hrecheck)
  · -- entering
    obtain rfl := Option.some.inj hstep
    exact .drain (by exact hcaller) (Table.Monitor.visit_enter rfl)
  · -- awaiting
    obtain ⟨⟨m, r⟩, hrecheck, rfl⟩ := Option.map_eq_some_iff.mp hstep
    exact .drain (by exact hcaller) (h.recheck_table htableWant hrecheck)
  · cases hstep

/-- What `closerStep` does is a `Change`, once the closer has sent the notifications that it
owes. -/
private theorem change_of_closerStep {step : Step} (hsettled : j.deliver? .closer = none)
    (hstep : j.closerStep = some step) : Change j (.act .closer) step := by
  unfold closerStep at hstep
  split at hstep
  · exact nomatch hstep
  · exact nomatch hstep
  · rename_i s hclosing
    obtain rfl := Option.some.inj hstep
    refine .close hclosing (by split <;> exact nofun) ?_
    split <;> rename_i hnext <;> rw [hnext] <;> rfl
  · rename_i hclosing
    obtain rfl := Option.some.inj hstep
    exact .abort hclosing hsettled
  · rename_i s hclosing
    -- `joinNext` goes on in the same way whether the worker stopped or crashed. Only its event
    -- differs.
    have hgone {es : List Event} (hes : ∀ e ∈ es, e = .workerCrashed s)
        (hover : (j.workers.get s).phase.isOver = true) :
        Change j (.act .closer) (j.joinNext s es) := by
      unfold joinNext
      split <;> rename_i hnext
      · exact .gone hclosing nofun (fun e he => .inl (hes e he)) hover (by rw [hnext]; rfl)
      · refine .gone hclosing nofun (fun e he => ?_) hover (by rw [hnext]; rfl)
        exact (List.mem_append.mp he).imp (hes e) List.mem_singleton.mp
    split at hstep
    · rename_i hphase
      obtain rfl := Option.some.inj hstep
      exact hgone nofun (by rw [hphase]; rfl)
    · rename_i hphase
      obtain rfl := Option.some.inj hstep
      exact hgone (by simp) (by rw [hphase]; rfl)
    · exact nomatch hstep

/-- What a `step` of an attended journal comes to is a `Change`. Later proofs take apart the change
and never the step. -/
theorem change_of_step {action : Action} {step : Step} (h : j.Attended)
    (hstep : j.step action = some step) : Change j action step := by
  cases action with
  | act a =>
    simp only [Journal.step, actorStep] at hstep
    split at hstep
    · -- What the actor owes comes first, whatever it would do next.
      rename_i step' hdeliver
      obtain ⟨s, m, hm, rfl⟩ := deliver?_some hdeliver
      obtain rfl := Option.some.inj hstep
      exact .deliver hm
    · rename_i hdeliver
      cases a with
      | worker s => exact change_of_workerStep h hstep
      | caller k => exact change_of_callerStep h hstep
      | closer => exact change_of_closerStep hdeliver hstep
  | submit ids =>
    simp only [Journal.step] at hstep
    split at hstep
    · rename_i hadmits
      obtain rfl := Option.some.inj hstep
      exact .arrive hadmits
    · exact nomatch hstep
  | awaitAll =>
    simp only [Journal.step] at hstep
    split at hstep
    · rename_i hadmits
      obtain rfl := Option.some.inj hstep
      exact .await hadmits
    · exact nomatch hstep
  | complete t =>
    simp only [Journal.step] at hstep
    split at hstep
    · rename_i hmem
      obtain rfl := Option.some.inj hstep
      exact .complete hmem
    · exact nomatch hstep
  | drop t =>
    simp only [Journal.step] at hstep
    split at hstep
    · rename_i hmem
      obtain rfl := Option.some.inj hstep
      exact .drop hmem
    · exact nomatch hstep
  | report id op =>
    obtain rfl := Option.some.inj hstep
    exact .report id op
  | shutDown =>
    simp only [Journal.step] at hstep
    split at hstep
    · exact nomatch hstep
    · rename_i hcalled
      split at hstep
      · rename_i hopen
        obtain rfl := Option.some.inj hstep
        exact .shutDown hopen (by simpa using hcalled)
      · split at hstep
        · obtain rfl := Option.some.inj hstep
          exact .shutDownAgain
        · exact nomatch hstep
  | clientPanic =>
    simp only [Journal.step] at hstep
    split at hstep
    · rename_i hphase
      obtain rfl := Option.some.inj hstep
      exact .clientPanic hphase
    · exact nomatch hstep
  | devicePanic s =>
    simp only [Journal.step] at hstep
    split at hstep
    · rename_i hphase
      obtain rfl := Option.some.inj hstep
      exact .devicePanic hphase
    · exact nomatch hstep

/-! ## Attendance along a run -/

/-- A new caller that does not wait yet leaves the journal `Attended`. -/
private theorem Attended.call {c : Caller} (h : j.Attended) (hqueueWant : c.queueWant? = none)
    (htableWant : c.tableWant? = none) : (j.call c).Attended := by
  refine h.of_perm (fun s => List.Perm.refl _) (List.Perm.refl _) (fun a => ?_) fun a => ?_
  · cases a with
    | worker s => rfl
    | caller k =>
      simp only [queueWant?, Journal.call, List.getElem?_append]
      split
      · rfl
      · rename_i hk
        -- The new caller is the last.
        rw [List.getElem?_eq_none (l := j.callers) (by omega)]
        cases k - j.callers.length <;> simp [hqueueWant]
    | closer => rfl
  · cases a with
    | worker s => rfl
    | caller k =>
      simp only [tableWant?, Journal.call, List.getElem?_append]
      split
      · rfl
      · rename_i hk
        rw [List.getElem?_eq_none (l := j.callers) (by omega)]
        cases k - j.callers.length <;> simp [htableWant]
    | closer => rfl

/-- A worker that does not look at a monitor waits neither before nor after its step, so the journal
stays `Attended`. -/
private theorem Attended.rephase {p : Phase} (h : j.Attended) (hrephases : j.Rephases j' s p)
    (hqueues : j'.queues = j.queues) (htable : j'.table.waiters.all.Perm j.table.waiters.all)
    (hqueueWant : p.queueWant? s = (j.workers.get s).phase.queueWant? s)
    (htableWant : p.tableWant? s = (j.workers.get s).phase.tableWant? s) : j'.Attended := by
  refine h.of_perm (fun t => by rw [hqueues]) htable (fun a => ?_) fun a => ?_
  · rw [hrephases.queueWant?]
    split
    · rename_i ha
      rw [ha, hqueueWant]
      rfl
    · rfl
  · rw [hrephases.tableWant?]
    split
    · rename_i ha
      rw [ha, htableWant]
      rfl
    · rfl

/-- A worker looks at a queue (`Visit`) and goes into the phase that the answer leads to. -/
private theorem Attended.rephase_queue {p : Phase} {want : Queue.Want WriteId} {first : Bool}
    {m : Queue.Monitor Actor WriteId} {r : Option (Queue.Reply WriteId)} (h : j.Attended)
    (hvisit : (j.queues.get t).Visit (.worker s) want first m r)
    (hbefore : (j.workers.get s).phase.queueWant? s = if first then none else some (t, want))
    (hafter : p.queueWant? s = if r = none then some (t, want) else none)
    (htableWant : p.tableWant? s = (j.workers.get s).phase.tableWant? s) :
    ((j.setQueue t m).setPhase s p).Attended := by
  have hrephases : j.Rephases ((j.setQueue t m).setPhase s p) s p := rephases_setPhase _ s p
  refine h.visit_queue hvisit rfl rfl hbefore ?_ (fun b hb => ?_) fun b => ?_
  · rw [hrephases.queueWant?, if_pos rfl, hafter]
  · rw [hrephases.queueWant?, if_neg hb]
  · rw [hrephases.tableWant?]
    split
    · rename_i hb
      rw [hb, htableWant]
      rfl
    · rfl

/-- A worker looks at the table (`Visit`) and goes into the phase that the answer leads to. -/
private theorem Attended.rephase_table {p : Phase} {want : Table.Want} {first : Bool}
    {m : Table.Monitor Actor} {r : Option Table.Reply} (h : j.Attended)
    (hvisit : j.table.Visit (.worker s) want first m r)
    (hrephases : j.Rephases j' s p) (hqueues : j'.queues = j.queues) (htable : j'.table = m)
    (hbefore : (j.workers.get s).phase.tableWant? s = if first then none else some want)
    (hafter : p.tableWant? s = if r = none then some want else none)
    (hqueueWant : p.queueWant? s = (j.workers.get s).phase.queueWant? s) : j'.Attended := by
  refine h.visit_table hvisit hqueues htable hbefore ?_ (fun b hb => ?_) fun b => ?_
  · rw [hrephases.tableWant?, if_pos rfl, hafter]
  · rw [hrephases.tableWant?, if_neg hb]
  · rw [hrephases.queueWant?]
    split
    · rename_i hb
      rw [hb, hqueueWant]
      rfl
    · rfl

/-- A caller looks at the table (`Visit`) and stands afterwards where the answer leads to. -/
private theorem Attended.recall_table {k : Nat} {c₀ c : Caller} {want : Table.Want} {first : Bool}
    {m : Table.Monitor Actor} {r : Option Table.Reply} (h : j.Attended)
    (hcaller : j.callers[k]? = some c₀) (hvisit : j.table.Visit (.caller k) want first m r)
    (hbefore : c₀.tableWant? = if first then none else some want)
    (hafter : c.tableWant? = if r = none then some want else none)
    (hqueueWant : c.queueWant? = c₀.queueWant?) :
    ({ j with table := m }.setCaller k c).Attended := by
  have hrecalls : j.Recalls ({ j with table := m }.setCaller k c) k c :=
    recalls_setCaller (j := { j with table := m }) hcaller c
  refine h.visit_table hvisit rfl rfl ?_ ?_ (fun b hb => ?_) fun b => ?_
  · rw [← hbefore]
    simp [tableWant?, hcaller]
  · rw [hrecalls.tableWant?, if_pos rfl, hafter]
  · rw [hrecalls.tableWant?, if_neg hb]
  · rw [hrecalls.queueWant?]
    split
    · rename_i hb
      rw [hb, hqueueWant]
      simp [queueWant?, hcaller]
    · rfl

/-- A caller looks at a queue (`Visit`) and stands afterwards where the answer leads to. -/
private theorem Attended.recall_queue {k : Nat} {c₀ c : Caller} {want : Queue.Want WriteId}
    {first : Bool} {m : Queue.Monitor Actor WriteId} {r : Option (Queue.Reply WriteId)}
    (h : j.Attended) (hcaller : j.callers[k]? = some c₀)
    (hvisit : (j.queues.get t).Visit (.caller k) want first m r)
    (hbefore : c₀.queueWant? = if first then none else some (t, want))
    (hafter : c.queueWant? = if r = none then some (t, want) else none)
    (htableWant : c.tableWant? = c₀.tableWant?) : ((j.setQueue t m).setCaller k c).Attended := by
  have hrecalls : j.Recalls ((j.setQueue t m).setCaller k c) k c :=
    recalls_setCaller (j := j.setQueue t m) hcaller c
  refine h.visit_queue hvisit rfl rfl ?_ ?_ (fun b hb => ?_) fun b => ?_
  · rw [← hbefore]
    simp [queueWant?, hcaller]
  · rw [hrecalls.queueWant?, if_pos rfl, hafter]
  · rw [hrecalls.queueWant?, if_neg hb]
  · rw [hrecalls.tableWant?]
    split
    · rename_i hb
      rw [hb, htableWant]
      simp [tableWant?, hcaller]
    · rfl

/-! ### One critical section each -/

/-- After `setQueue` with the same waiters, in whatever order, nobody waits anew. -/
private theorem Attended.setQueue_perm {m : Queue.Monitor Actor WriteId} (h : j.Attended)
    (hall : m.waiters.all.Perm (j.queues.get s).waiters.all) : (j.setQueue s m).Attended := by
  refine h.of_perm (fun t => ?_) (List.Perm.refl _) (fun _ => rfl) fun _ => rfl
  simp only [setQueue, PerStage.get_set]
  split
  · rename_i ht
    rw [ht]
    exact hall
  · exact List.Perm.refl _

/-- After `afterPop` a worker waits for an item exactly if it got no reply. -/
private theorem Attended.afterPop {first : Bool} {m : Queue.Monitor Actor WriteId}
    {r : Option (Queue.Reply WriteId)} (h : j.Attended)
    (hphase : (j.workers.get s).phase = if first then .popping else .awaitingItem)
    (hvisit : (j.queues.get s).Visit (.worker s) .pop first m r) :
    ((j.setQueue s m).afterPop s r).1.Attended := by
  have hbefore : (j.workers.get s).phase.queueWant? s = if first then none else some (s, .pop) := by
    rw [hphase]; cases first <;> rfl
  have htableWant : (j.workers.get s).phase.tableWant? s = none := by
    rw [hphase]; cases first <;> rfl
  cases r with
  | none => exact h.rephase_queue hvisit hbefore rfl htableWant.symm
  | some r => cases r <;> exact h.rephase_queue hvisit hbefore rfl htableWant.symm

/-- A worker that calls `record` waits neither before nor after, whether or not there is a slot. -/
private theorem Attended.record {id : WriteId} {op : Operation} {left : List Operation}
    (h : j.Attended) (hphase : (j.workers.get s).phase = .issuing id (op :: left)) :
    (j.record s id op left).1.Attended := by
  unfold Journal.record
  split
  · -- The operation is on record, which wakes nobody.
    rename_i m g hissue
    refine h.rephase (rephases_setPhase { j with table := m } s _) rfl ?_ ?_ ?_
    · exact List.Perm.of_eq (congrArg _ (Table.Monitor.recordIssue_waiters hissue))
    · rw [hphase]; rfl
    · rw [hphase]; rfl
  · refine h.rephase (rephases_setPhase j s _) rfl (List.Perm.refl _) ?_ ?_
    · rw [hphase]; rfl
    · rw [hphase]; rfl

/-- A worker that hands a token over by `hand` waits neither before nor after, if it does not wait
in the phase that it goes into. -/
private theorem Attended.hand {t : Token} {left : List Operation} {p : Phase} (h : j.Attended)
    (hphase : (j.workers.get s).phase = .handing t left) (hqueueWant : p.queueWant? s = none)
    (htableWant : p.tableWant? s = none) : (j.hand s t p).1.Attended := by
  refine h.rephase (rephases_setPhase { j with outstanding := j.outstanding ++ [t] } s _) rfl
    (List.Perm.refl _) ?_ ?_
  · rw [hphase, hqueueWant]; rfl
  · rw [hphase, htableWant]; rfl

/-- After `afterJoin` a worker waits for its join exactly if it got no reply. -/
private theorem Attended.afterJoin {id : WriteId} {first : Bool} {m : Table.Monitor Actor}
    {r : Option Table.Reply} (h : j.Attended)
    (hphase : (j.workers.get s).phase = if first then .issuing id [] else .awaitingJoin id)
    (hvisit : j.table.Visit (.worker s) (.join id s) first m r) :
    ({ j with table := m }.afterJoin s id r).1.Attended := by
  have hbefore : (j.workers.get s).phase.tableWant? s =
      if first then none else some (.join id s) := by
    rw [hphase]; cases first <;> rfl
  have hqueueWant : (j.workers.get s).phase.queueWant? s = none := by
    rw [hphase]; cases first <;> rfl
  have hset (p : Phase) : j.Rephases ({ j with table := m }.setPhase s p) s p :=
    rephases_setPhase { j with table := m } s p
  have hadvance := rephases_advance { j with table := m } s id
  cases r with
  | none => exact h.rephase_table hvisit (hset _) rfl rfl hbefore rfl hqueueWant.symm
  | some r =>
    cases r with
    | refused e => exact h.rephase_table hvisit (hset _) rfl rfl hbefore rfl hqueueWant.symm
    | failed f => exact h.rephase_table hvisit (hset _) rfl rfl hbefore rfl hqueueWant.symm
    -- Every other answer lets the worker `advance`.
    | acquired g | joined | drained =>
      refine h.rephase_table hvisit hadvance rfl rfl hbefore ?_ ?_
      · split <;> rfl
      · rw [hqueueWant]; split <;> rfl

/-- After `afterPush` a worker waits for room exactly if it got no reply. -/
private theorem Attended.afterPush {id : WriteId} {first : Bool}
    {m : Queue.Monitor Actor WriteId} {r : Option (Queue.Reply WriteId)} (h : j.Attended)
    (hnext : s.next = some t)
    (hphase : (j.workers.get s).phase = if first then .pushing id else .awaitingRoom id)
    (hvisit : (j.queues.get t).Visit (.worker s) (.push id) first m r) :
    ((j.setQueue t m).afterPush s t id first r).1.Attended := by
  have hbefore : (j.workers.get s).phase.queueWant? s =
      if first then none else some (t, .push id) := by
    rw [hphase]; cases first <;> simp [Phase.queueWant?, hnext]
  have htableWant : (j.workers.get s).phase.tableWant? s = none := by
    rw [hphase]; cases first <;> rfl
  cases r with
  | none =>
    refine h.rephase_queue hvisit hbefore ?_ htableWant.symm
    simp [Phase.queueWant?, hnext]
  | some r => cases r <;> exact h.rephase_queue hvisit hbefore rfl htableWant.symm

/-- A worker that tells the client by `notify` waits neither before nor after, even if the client
panics. -/
private theorem Attended.notify {id : WriteId} (h : j.Attended) (panics : Bool)
    (hphase : (j.workers.get s).phase = .notifying id) : (j.notify s id panics).1.Attended := by
  refine h.rephase (rephases_setPhase j s _) rfl (List.Perm.refl _) ?_ ?_
  · rw [hphase]; cases panics <;> rfl
  · rw [hphase]; cases panics <;> rfl

/-- A worker that calls `mark` waits neither before nor after; the callers whom the table wakes by
it are still among its waiters. -/
private theorem Attended.mark {id : WriteId} (h : j.Attended)
    (hphase : (j.workers.get s).phase = .marking id) : (j.mark s id).1.Attended := by
  unfold Journal.mark
  split
  · rename_i m released hmark
    refine h.rephase (rephases_setPhase { j with table := m } s _) rfl
      (Table.Monitor.markCheckpointDone_all hmark) ?_ ?_
    · rw [hphase]; rfl
    · rw [hphase]; rfl
  · refine h.rephase (rephases_setPhase j s _) rfl (List.Perm.refl _) ?_ ?_
    · rw [hphase]; rfl
    · rw [hphase]; rfl

/-- After `afterAcquire` a submitter waits for the slot exactly if it got no reply. -/
private theorem Attended.afterAcquire {k : Nat} {id : WriteId} {left : List WriteId}
    {answers : List (Option JournalError)} {first : Bool} {m : Table.Monitor Actor}
    {r : Option Table.Reply} (h : j.Attended)
    (hcaller : j.callers[k]? = some (if first then .submitter .between (id :: left) answers
      else .submitter (.awaitingSlot id) left answers))
    (hvisit : j.table.Visit (.caller k) (.slot id) first m r) :
    ({ j with table := m }.afterAcquire k id left answers r).1.Attended := by
  have hafter {c : Caller} (hc : c.tableWant? = if r = none then some (.slot id) else none)
      (hq : c.queueWant? = none) : ({ j with table := m }.setCaller k c).Attended := by
    refine h.recall_table hcaller hvisit ?_ hc ?_
    · cases first <;> rfl
    · rw [hq]; cases first <;> rfl
  rcases hvisit.slot_cases with ⟨g, rfl, -⟩ | ⟨e, rfl, -⟩ | ⟨rfl, -⟩
  · exact hafter rfl rfl
  · exact hafter rfl rfl
  · exact hafter rfl rfl

/-- After `afterSubmit` a submitter waits for room exactly if it got no reply. -/
private theorem Attended.afterSubmit {k : Nat} {id : WriteId} {left : List WriteId}
    {answers : List (Option JournalError)} {first : Bool} {m : Queue.Monitor Actor WriteId}
    {r : Option (Queue.Reply WriteId)} (h : j.Attended)
    (hcaller : j.callers[k]? =
      some (.submitter (if first then .admitted id else .awaitingRoom id) left answers))
    (hvisit : (j.queues.get .metadata).Visit (.caller k) (.push id) first m r) :
    ((j.setQueue .metadata m).afterSubmit k id left answers first r).1.Attended := by
  have hafter {c : Caller}
      (hc : c.queueWant? = if r = none then some (.metadata, .push id) else none)
      (ht : c.tableWant? = none) : ((j.setQueue .metadata m).setCaller k c).Attended := by
    refine h.recall_queue hcaller hvisit ?_ hc ?_
    · cases first <;> rfl
    · rw [ht]; cases first <;> rfl
  cases r with
  | none => exact hafter rfl rfl
  | some r => cases r <;> exact hafter rfl rfl

/-- After `afterDrain` a caller waits for all writes exactly if it got no reply. -/
private theorem Attended.afterDrain {k : Nat} {first : Bool} {m : Table.Monitor Actor}
    {r : Option Table.Reply} (h : j.Attended)
    (hcaller : j.callers[k]? = some (.drainer (if first then .entering else .awaiting)))
    (hvisit : j.table.Visit (.caller k) .drain first m r) :
    ({ j with table := m }.afterDrain k r).1.Attended := by
  have hafter {c : Caller} (hc : c.tableWant? = if r = none then some .drain else none)
      (hq : c.queueWant? = none) : ({ j with table := m }.setCaller k c).Attended := by
    refine h.recall_table hcaller hvisit ?_ hc ?_
    · cases first <;> rfl
    · rw [hq]; cases first <;> rfl
  cases r with
  | none => exact hafter rfl rfl
  | some r => exact hafter rfl rfl

/-- A `Change` keeps a journal `Attended`: whoever a monitor has among its waiters is in the phase
that says so. -/
theorem Change.attended {action : Action} {step : Step} (h : j.Attended)
    (hchange : Change j action step) : step.1.Attended := by
  cases hchange with
  | deliver hdeliver => exact h.setQueue_perm (Queue.Monitor.deliver_all hdeliver)
  | pop hphase hvisit => exact h.afterPop hphase hvisit
  | record hphase => exact h.record hphase
  | hand hphase | devicePanic hphase => exact h.hand hphase rfl rfl
  | join hphase hvisit => exact h.afterJoin hphase hvisit
  | push hnext hphase hvisit => exact h.afterPush hnext hphase hvisit
  | notify hphase | clientPanic hphase => exact h.notify _ hphase
  | mark hphase => exact h.mark hphase
  | acquire hcaller hvisit => exact h.afterAcquire hcaller hvisit
  | submit hcaller hvisit => exact h.afterSubmit hcaller hvisit
  | drain hcaller hvisit => exact h.afterDrain hcaller hvisit
  | @close s =>
    have hclosed := h.setQueue_perm (m := (j.queues.get s).close .closer) (List.Perm.refl _)
    exact ⟨hclosed.queues, hclosed.table⟩
  -- `shutDown` moves all sleepers of the table to the woken ones, and nobody leaves.
  | abort =>
    exact h.of_perm (fun _ => List.Perm.refl _) j.table.shutDown_all (fun _ => rfl) fun _ => rfl
  -- A completion may wake the waiters of the slot. They are among the waiters until they look
  -- again.
  | complete | report =>
    exact h.of_perm (fun _ => List.Perm.refl _) (Table.Monitor.recordCompletion_all rfl)
      (fun _ => rfl) fun _ => rfl
  | arrive | await => exact h.call rfl rfl
  | gone | drop | shutDown => exact ⟨h.queues, h.table⟩
  | shutDownAgain => exact h

/-- The journal of a run is `Attended`, so by `change_of_step` its steps are changes. -/
theorem Run.attended {c : Config} {as : List Action} {es : List Event} (h : Run c as j es) :
    j.Attended := by
  induction h with
  | start hstart =>
    obtain ⟨-, -, rfl, -⟩ := start_eq_ok hstart
    exact attended_create c
  | step hrun hstep ih => exact (change_of_step ih hstep).attended ih

end WriteAhead.Journal
