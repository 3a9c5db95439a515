import WriteAhead.Proofs.Journal.Alert
import WriteAhead.Proofs.Journal.Keeping

/-!
# A journal in which nobody can go on

A journal is still when neither a worker nor a caller can go on; the device may have tokens that it
has not completed. Then nothing is owed, nobody is woken, and whoever waits does so rightly: for
writes at an empty queue, for room at a full one, for a join that does not hold. What the join lacks
has a token with the device, or had one that was dropped.

## Key results

- `IsStill.empty_of_pop`, `IsStill.full_of_push`, `IsStill.lacks`: who waits, waits rightly
- `IsStill.phase_cases`: what a worker waits for
- `IsStill.awaited`: what a join lacks was handed to the device
- `IsStill.idle`: workers that wait for no join wait for writes if the queues behind them are empty
-/

namespace WriteAhead.Journal

variable {c : Config} {as : List Action} {j : Journal} {es : List Event} {a : Actor} {s t : Stage}
  {id : WriteId}

/-- The journals of a run have room in their queues: `Config.check` refuses others. -/
theorem Run.bufferSize_pos (hrun : Run c as j es) : 0 < c.bufferSize := by
  induction hrun with
  | start hstart => exact (start_eq_ok hstart).1
  | step hrun hstep ih => exact ih

/-! ## Dropped tokens -/

/-- Only the device drops tokens, by `Action.drop`. -/
theorem Change.drop_of_dropped {action : Action} {step : Step} {t : Token}
    (h : Change j action step) (hmem : .dropped t ∈ step.2) : action = .drop t := by
  cases h with
  | drop => rw [Event.dropped.inj (List.mem_singleton.mp hmem)]
  | pop => unfold afterPop at hmem; split at hmem <;> simp at hmem
  | record => unfold Journal.record at hmem; split at hmem <;> simp at hmem
  | mark => unfold Journal.mark at hmem; split at hmem <;> simp at hmem
  | @join s =>
    unfold afterJoin stopOn Journal.advance at hmem
    split at hmem <;> cases s <;> simp [Stage.next] at hmem
  | @push s t id first =>
    unfold afterPush at hmem; split at hmem <;> cases first <;> simp [stopOn] at hmem
  | acquire => unfold afterAcquire at hmem; split at hmem <;> simp at hmem
  | @submit k id left answers first =>
    unfold afterSubmit at hmem; split at hmem <;> cases first <;> simp at hmem
  | drain => unfold afterDrain at hmem; split at hmem <;> simp at hmem
  | gone _ _ hes => rcases hes _ hmem with h | h <;> cases h
  | _ => simp [Journal.hand, Journal.notify] at hmem

/-- Every token that was `dropped` in a run was dropped by the device. -/
theorem Run.drop_of_dropped {t : Token} (hrun : Run c as j es) (hmem : .dropped t ∈ es) :
    .drop t ∈ as := by
  induction hrun with
  | start hstart =>
    obtain ⟨-, -, -, rfl⟩ := start_eq_ok hstart
    simp at hmem
  | @step as j j' es es' a hrun hstep ih =>
    rw [List.mem_append] at hmem ⊢
    rcases hmem with hmem | hmem
    · exact .inl (ih hmem)
    · rw [(change_of_step hrun.attended hstep).drop_of_dropped hmem]
      exact .inr (List.mem_singleton_self _)

/-! ## Journals that are still -/

/-- Neither a worker nor a caller can go on. -/
structure IsStill (j : Journal) : Prop where
  workers : ∀ s, j.step (.act (.worker s)) = none
  callers : ∀ k, j.step (.act (.caller k)) = none

/-- Beyond the `callers` there is nobody to take a step, where nothing is owed. -/
theorem step_caller_of_length_le {k : Nat} (hk : j.callers.length ≤ k)
    (howed : ∀ s, (j.queues.get s).owed = []) : j.step (.act (.caller k)) = none := by
  have hdeliver : j.deliver? (.caller k) = none := by
    rw [deliver?_eq_none_iff]
    intro s x hx
    rw [howed] at hx
    exact nomatch hx
  have hcaller : j.callers[k]? = none := List.getElem?_eq_none hk
  rw [step, actorStep, hdeliver]
  simp only [callerStep, hcaller]
  rfl

/-- If nothing is owed, a journal `IsStill` as soon as its workers and its callers are. This is what
a computation can check. -/
theorem isStill_of_all
    (hworkers : ∀ s, (j.step (.act (.worker s))).isNone && (j.queues.get s).owed.isEmpty)
    (hcallers : (List.range j.callers.length).all fun k => (j.step (.act (.caller k))).isNone) :
    j.IsStill := by
  simp only [Bool.and_eq_true, Option.isNone_iff_eq_none, List.isEmpty_iff] at hworkers
  refine ⟨fun s => (hworkers s).1, fun k => ?_⟩
  by_cases hk : k < j.callers.length
  · exact Option.isNone_iff_eq_none.mp (List.all_eq_true.mp hcallers k (List.mem_range.mpr hk))
  · exact step_caller_of_length_le (Nat.le_of_not_lt hk) fun s => (hworkers s).2

namespace IsStill

/-! ## Nothing is owed and nobody is woken -/

/-- A worker of a journal that is still has nothing to send (`deliver?`) and no step to take
(`workerStep`). -/
theorem worker (h : j.IsStill) (s : Stage) :
    j.deliver? (.worker s) = none ∧ j.workerStep s = none := by
  have hstep : j.actorStep (.worker s) = none := h.workers s
  unfold actorStep at hstep
  split at hstep
  · exact nomatch hstep
  · rename_i hdeliver
    exact ⟨hdeliver, hstep⟩

/-- A caller of a journal that is still has nothing to send (`deliver?`) and no step to take
(`callerStep`). -/
theorem caller (h : j.IsStill) (k : Nat) :
    j.deliver? (.caller k) = none ∧ j.callerStep k = none := by
  have hstep : j.actorStep (.caller k) = none := h.callers k
  unfold actorStep at hstep
  split at hstep
  · exact nomatch hstep
  · rename_i hdeliver
    exact ⟨hdeliver, hstep⟩

/-- At rest no notification is `owed`. -/
theorem owed_eq_nil (h : j.IsStill) (hwatchful : j.Watchful c) (hopen : j.closing = .open)
    (s : Stage) : (j.queues.get s).owed = [] := by
  rw [List.eq_nil_iff_forall_not_mem]
  intro x hx
  cases ha : x.1 with
  | worker t => exact deliver?_eq_none_iff.mp (h.worker t).1 _ x hx ha
  | caller k => exact deliver?_eq_none_iff.mp (h.caller k).1 _ x hx ha
  | closer => exact hwatchful.closer hopen s x hx ha

/-- At rest nobody who waits at a queue can `recheck`, so nobody is woken there. -/
theorem recheck_queue (h : j.IsStill) {want : Queue.Want WriteId}
    (hwant : j.queueWant? a = some (s, want)) : (j.queues.get s).recheck a = none := by
  -- Only the phases with a want matter, and in each the step would be this `recheck`.
  cases a with
  | worker t =>
    have hstep := (h.worker t).2
    unfold workerStep at hstep
    cases hphase : (j.workers.get t).phase with
    | awaitingItem =>
      rw [queueWant?, hphase] at hwant
      obtain ⟨rfl, -⟩ := Prod.mk.inj (Option.some.inj hwant)
      rw [hphase] at hstep
      exact Option.map_eq_none_iff.mp hstep
    | awaitingRoom id =>
      rw [queueWant?, hphase] at hwant
      obtain ⟨t', hnext, heq⟩ := Option.map_eq_some_iff.mp hwant
      obtain ⟨rfl, -⟩ := Prod.mk.inj heq
      rw [hphase] at hstep
      simp only [hnext, Option.bind_some] at hstep
      exact Option.map_eq_none_iff.mp hstep
    | _ => rw [queueWant?, hphase] at hwant; cases hwant
  | caller k =>
    have hstep := (h.caller k).2
    obtain ⟨caller, hcaller, hwant⟩ := Option.bind_eq_some_iff.mp hwant
    rw [callerStep, hcaller] at hstep
    cases caller with
    | submitter point left answers =>
      cases point with
      | awaitingRoom id =>
        obtain ⟨rfl, -⟩ := Prod.mk.inj (Option.some.inj hwant)
        exact Option.map_eq_none_iff.mp hstep
      | _ => cases hwant
    | drainer point => cases hwant
  | closer => cases hwant

/-- At rest nobody who waits at the table can `recheck`, so nobody is woken there. -/
theorem recheck_table (h : j.IsStill) {want : Table.Want} (hwant : j.tableWant? a = some want) :
    j.table.recheck a = none := by
  -- As at a queue: the step of whoever wants something would be this `recheck`.
  cases a with
  | worker t =>
    have hstep := (h.worker t).2
    unfold workerStep at hstep
    cases hphase : (j.workers.get t).phase with
    | awaitingJoin id =>
      rw [hphase] at hstep
      exact Option.map_eq_none_iff.mp hstep
    | _ => rw [tableWant?, hphase] at hwant; cases hwant
  | caller k =>
    have hstep := (h.caller k).2
    obtain ⟨caller, hcaller, hwant⟩ := Option.bind_eq_some_iff.mp hwant
    rw [callerStep, hcaller] at hstep
    cases caller with
    | submitter point left answers =>
      cases point with
      | awaitingSlot id => exact Option.map_eq_none_iff.mp hstep
      | _ => cases hwant
    | drainer point =>
      cases point with
      | awaiting => exact Option.map_eq_none_iff.mp hstep
      | _ => cases hwant
  | closer => cases hwant

/-! ## Who waits, waits rightly -/

/-- At rest nobody is `woken` at a queue. -/
theorem woken_queue (h : j.IsStill) (hattended : j.Attended) (s : Stage) :
    (j.queues.get s).waiters.woken = [] := by
  rw [List.eq_nil_iff_forall_not_mem]
  rintro ⟨a, want⟩ hmem
  have hwant := ((hattended.queues s).mem_iff a want).mp (List.mem_append_right _ hmem)
  have hrecheck := h.recheck_queue hwant
  rw [Queue.Monitor.recheck, Option.map_eq_none_iff] at hrecheck
  have hsome := Waiters.wokenWant?_isSome hmem
  rw [hrecheck] at hsome
  exact nomatch hsome

/-- At rest whoever waits at a queue is `asleep`. -/
theorem asleep_queue (h : j.IsStill) (hattended : j.Attended) {want : Queue.Want WriteId}
    (hwant : j.queueWant? a = some (s, want)) : (a, want) ∈ (j.queues.get s).waiters.asleep := by
  have hmem := ((hattended.queues s).mem_iff a want).mpr hwant
  rw [Waiters.all, h.woken_queue hattended s, List.append_nil] at hmem
  exact hmem

/-- At rest who wants a `pop` waits at an empty queue, since the queue is alert. -/
theorem empty_of_pop (h : j.IsStill) (hrun : Run c as j es) (hopen : j.closing = .open)
    (hclosed : (j.queue s).closed = false) (hwant : j.queueWant? a = some (s, .pop)) :
    (j.queue s).items = [] :=
  (hrun.watchful.queues s).empty_of_asleep hclosed (h.woken_queue hrun.attended s)
    (h.owed_eq_nil hrun.watchful hopen s) (h.asleep_queue hrun.attended hwant)

/-- At rest who wants a `push` waits at a full queue, since the queue is alert. -/
theorem full_of_push (h : j.IsStill) (hrun : Run c as j es) (hopen : j.closing = .open)
    (hclosed : (j.queue s).closed = false) (hwant : j.queueWant? a = some (s, .push id)) :
    c.bufferSize ≤ (j.queue s).items.length := by
  have hfull := (hrun.watchful.queues s).full_of_asleep hclosed (h.woken_queue hrun.attended s)
    (h.owed_eq_nil hrun.watchful hopen s) (h.asleep_queue hrun.attended hwant)
  have hcapacity := hrun.watchful.capacity s
  unfold queue at hcapacity
  rwa [hcapacity] at hfull

/-- At rest what somebody waits for at the table does not hold: the sleeper `Lacks` it. -/
theorem lacks (h : j.IsStill) (hrun : Run c as j es) {want : Table.Want}
    (hwant : j.tableWant? a = some want) : Table.Monitor.Lacks j.table.table want := by
  have hmem := (hrun.attended.table.mem_iff a want).mpr hwant
  rcases List.mem_append.mp hmem with hasleep | hwoken
  · exact hrun.watchful.table _ hasleep
  · have hrecheck := h.recheck_table hwant
    rw [Table.Monitor.recheck, Option.map_eq_none_iff] at hrecheck
    have hsome := Waiters.wokenWant?_isSome hwoken
    rw [hrecheck] at hsome
    exact nomatch hsome

/-! ## Workers at rest -/

/-- At rest a worker that is alive waits: for a write, for a join or for room (`awaitingItem`,
`awaitingJoin`, `awaitingRoom`). -/
theorem phase_cases (h : j.IsStill) (halive : j.pipeline.Alive)
    (hsuits : ∀ s, Pipeline.Suits s (j.pipeline.workers.get s)) (s : Stage) :
    (j.workers.get s).phase = .awaitingItem ∨ (∃ id, (j.workers.get s).phase = .awaitingJoin id) ∨
      ∃ id t, s.next = some t ∧ (j.workers.get s).phase = .awaitingRoom id := by
  have hstep := (h.worker s).2
  have hover := halive s
  have hsuit := hsuits s
  unfold workerStep at hstep
  rw [workers_pipeline] at hover hsuit
  -- In all other phases a worker that is alive has a step.
  cases hphase : (j.workers.get s).phase with
  | awaitingItem => exact .inl rfl
  | awaitingJoin id => exact .inr (.inl ⟨id, rfl⟩)
  | awaitingRoom id =>
    rw [hphase] at hsuit
    obtain ⟨t, hnext⟩ := Option.ne_none_iff_exists'.mp hsuit
    exact .inr (.inr ⟨id, t, hnext, rfl⟩)
  | pushing id =>
    rw [hphase] at hstep hsuit
    exact absurd (Option.map_eq_none_iff.mp hstep) hsuit
  | issuing id left => rw [hphase] at hstep; cases left <;> exact nomatch hstep
  | popping | handing | notifying | marking => rw [hphase] at hstep; exact nomatch hstep
  | stopped | crashed => rw [hphase] at hover; exact nomatch hover

/-! ## What the device has -/

/-- At rest every token is with the device, in `outstanding`. -/
theorem outstanding_of_token (h : j.IsStill) (halive : j.pipeline.Alive)
    (hsuits : ∀ s, Pipeline.Suits s (j.pipeline.workers.get s)) {t : Token}
    (hmem : t ∈ j.pipeline.tokens) : t ∈ j.outstanding := by
  rcases Pipeline.tokens_cases hmem with hmem | ⟨s, left, hphase⟩
  · exact hmem
  · rw [workers_pipeline] at hphase
    rcases h.phase_cases halive hsuits s with hwait | ⟨id, hwait⟩ | ⟨id, t, -, hwait⟩ <;>
      rw [hwait] at hphase <;> exact nomatch hphase

/-- At rest a worker is at `awaitingJoin` because of a token that the device has, or that it
dropped. -/
theorem awaited (h : j.IsStill) (hrun : Run c as j es) (hkeeps : j.pipeline.Keeps es)
    (hphase : (j.workers.get s).phase = .awaitingJoin id) :
    ∃ t : Token, t.writeId = id ∧ t.operation.stage = s ∧
      (t ∈ j.outstanding ∨ .dropped t ∈ es) := by
  have hwant : j.tableWant? (.worker s) = some (.join id s) := by
    rw [tableWant?, hphase]
    rfl
  obtain ⟨slot, hslot, hjoin⟩ := h.lacks hrun hwant
  have hplace : (j.pipeline.workers.get s).place? s = some ⟨id, s.after, s.index, none⟩ := by
    rw [workers_pipeline, hphase]
    rfl
  have hfits := hrun.pipeline.chronicle.fits (Pipeline.mem_places_of_phase hplace) hslot
  obtain ⟨op, hop, hlacks⟩ :
      ∃ op : Operation, op.stage = s ∧ slot.completed.contains op = false := by
    by_contra hnone
    push Not at hnone
    rw [OpSet.containsAll_iff.mpr fun op hop => ?_] at hjoin
    · cases hjoin
    · rw [Stage.contains_join, decide_eq_true_eq] at hop
      simpa using hnone op hop
  -- The operations of the stage are no more to be issued, so the one that is lacking was.
  have hissued : op ∈ issues id (since id es) := by
    have hall : op ∈ issues id (since id es) ++ s.after := by
      rw [hfits.issues_left]
      exact Operation.mem_all op
    refine (List.mem_append.mp hall).resolve_right fun hafter => ?_
    have hlt := (List.mem_filter.mp hafter).2
    rw [decide_eq_true_eq, hop] at hlt
    exact Nat.lt_irrefl _ hlt
  obtain ⟨t, hid, rfl, hmem⟩ := hkeeps.kept.tokened id slot op hslot hfits.inUse hissued hlacks
  exact ⟨t, hid, hop,
    hmem.imp_left (h.outstanding_of_token hkeeps.alive hrun.pipeline.suited)⟩

/-! ## Queues at rest -/

section

variable (h : j.IsStill) (hrun : Run c as j es) (hopen : j.closing = .open)
  (hkeeps : j.pipeline.Keeps es)

include h hrun hopen hkeeps

/-- At rest a worker at `awaitingItem` has an empty queue. -/
theorem items_eq_nil (hphase : (j.workers.get s).phase = .awaitingItem) :
    (j.queue s).items = [] := by
  have hclosed : (j.queue s).closed = false := by
    rw [← closed_pipeline]
    exact hkeeps.isOpen.lines s
  have hwant : j.queueWant? (.worker s) = some (s, .pop) := by
    rw [queueWant?, hphase]
    rfl
  exact h.empty_of_pop hrun hopen hclosed hwant

/-- At rest a worker at `awaitingRoom` has a full queue behind it. -/
theorem full_of_awaitingRoom (hnext : s.next = some t)
    (hphase : (j.workers.get s).phase = .awaitingRoom id) :
    c.bufferSize ≤ (j.queue t).items.length := by
  have hclosed : (j.queue t).closed = false := by
    rw [← closed_pipeline]
    exact hkeeps.isOpen.lines t
  have hwant : j.queueWant? (.worker s) = some (t, .push id) := by
    rw [queueWant?, hphase, Phase.queueWant?, hnext]
    rfl
  exact h.full_of_push hrun hopen hclosed hwant

/-- At rest a submitter at `awaitingRoom` has a full queue in front of it. -/
theorem full_of_submitter {k : Nat} {left : List WriteId} {answers : List (Option JournalError)}
    (hcaller : j.callers[k]? = some (.submitter (.awaitingRoom id) left answers)) :
    c.bufferSize ≤ (j.queue .metadata).items.length := by
  have hclosed : (j.queue .metadata).closed = false := by
    rw [← closed_pipeline]
    exact hkeeps.isOpen.lines .metadata
  have hwant : j.queueWant? (.caller k) = some (.metadata, .push id) := by
    rw [queueWant?, hcaller]
    rfl
  exact h.full_of_push hrun hopen hclosed hwant

/-- At rest a worker is at `awaitingItem`, and its queue is empty, if it does not wait for a join
and the queue behind it is empty. -/
theorem awaitingItem (hjoin : ∀ id, (j.workers.get s).phase ≠ .awaitingJoin id)
    (hnext : ∀ t, s.next = some t → (j.queue t).items = []) :
    (j.workers.get s).phase = .awaitingItem ∧ (j.queue s).items = [] := by
  rcases h.phase_cases hkeeps.alive hrun.pipeline.suited s with hphase | ⟨id, hphase⟩ |
    ⟨id, t, ht, hphase⟩
  · exact ⟨hphase, h.items_eq_nil hrun hopen hkeeps hphase⟩
  · exact absurd hphase (hjoin id)
  · -- A full queue is not empty, since there is room for one write.
    have hfull := h.full_of_awaitingRoom hrun hopen hkeeps ht hphase
    have hpos := hrun.bufferSize_pos
    rw [hnext t ht, List.length_nil] at hfull
    omega

/-- At rest the workers of some stages are at `awaitingItem`, and their queues are empty, if none of
them waits for a join and the queues behind these stages are empty. -/
theorem idle {P : Stage → Prop}
    (hjoin : ∀ s, P s → ∀ id, (j.workers.get s).phase ≠ .awaitingJoin id)
    (hnext : ∀ s t, P s → s.next = some t → P t ∨ (j.queue t).items = []) (s : Stage) (hs : P s) :
    (j.workers.get s).phase = .awaitingItem ∧ (j.queue s).items = [] := by
  -- From the last stage to the first, since room behind a worker is what it may wait for.
  induction hn : 2 - s.index using Nat.strongRecOn generalizing s with
  | _ n ih =>
    refine h.awaitingItem hrun hopen hkeeps (hjoin s hs) fun t ht => ?_
    refine (hnext s t hs ht).elim (fun hP => (ih (2 - t.index) ?_ t hP rfl).2) id
    have hindex := Stage.index_next ht
    have hle := t.index_le
    omega

end

end IsStill

end WriteAhead.Journal
