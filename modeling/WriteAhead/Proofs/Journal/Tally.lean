import WriteAhead.Proofs.Journal.Delivery
import WriteAhead.Proofs.Journal.Places

/-!
# The counters of a journal

Each queue counts what was pushed and popped, each worker what passed its join, and the history
tells what was accepted and of what the client was told. A write that goes from one counter to the
next is with one worker in between, and a worker has one write at a time. So the counters along the
pipeline differ by what the queues hold and by at most one for each worker: exactly by the write
that the phase of the worker says it has, as long as the worker goes on.

## Key results

- `Worker.Tallies`: the counters before and behind a worker
- `Journal.Run.tally`: the counters of every journal agree with its queues, workers and history
-/

namespace WriteAhead

/-! ## The counters around a worker -/

/-- How many writes a worker has that did not pass its join yet. -/
def Phase.unprocessed : Phase → Nat
  | .issuing .. | .handing .. | .awaitingJoin _ => 1
  | _ => 0

/-- How many writes a worker has that passed its join and that it still passes on. -/
def Phase.unpassed : Phase → Nat
  | .pushing _ | .awaitingRoom _ | .notifying _ => 1
  | _ => 0

/-- A worker that took `popped` writes and passed `passed` on has at most one in between, the one
that its phase says unless it came to its end with it. -/
structure Worker.Tallies (w : Worker) (popped passed : Nat) : Prop where
  processed_le : w.processed ≤ popped
  passed_le : passed ≤ w.processed
  popped_le : popped ≤ passed + 1
  eq_of_alive : w.phase.isOver = false →
    popped = w.processed + w.phase.unprocessed ∧ w.processed = passed + w.phase.unpassed

namespace Worker

variable {w w' : Worker} {popped passed : Nat}

/-- A worker `Tallies` with two counters if it has one write at most between them, and says in which
phase it is. -/
theorem Tallies.of_eq (unprocessed unpassed : Nat) (hpopped : popped = w.processed + unprocessed)
    (hprocessed : w.processed = passed + unpassed) (hone : unprocessed + unpassed ≤ 1)
    (hphase : w.phase.isOver = false →
      w.phase.unprocessed = unprocessed ∧ w.phase.unpassed = unpassed) :
    w.Tallies popped passed := by
  refine ⟨by omega, by omega, by omega, fun halive => ?_⟩
  obtain ⟨rfl, rfl⟩ := hphase halive
  exact ⟨hpopped, hprocessed⟩

/-- A worker that has the same write `unprocessed` and `unpassed` as before, or comes to its end,
counts nothing. -/
theorem Tallies.same (h : w.Tallies popped passed) (hprocessed : w'.processed = w.processed)
    (hphase : w'.phase.isOver = false → w.phase.isOver = false ∧
      w'.phase.unprocessed = w.phase.unprocessed ∧ w'.phase.unpassed = w.phase.unpassed) :
    w'.Tallies popped passed := by
  refine ⟨hprocessed ▸ h.processed_le, hprocessed ▸ h.passed_le, h.popped_le, fun halive => ?_⟩
  obtain ⟨hbefore, hunprocessed, hunpassed⟩ := hphase halive
  rw [hprocessed, hunprocessed, hunpassed]
  exact h.eq_of_alive hbefore

end Worker

namespace Journal

variable {c : Config} {as : List Action} {j j' : Journal} {es es' : List Event} {a : Action}
  {s t : Stage}

/-! ## The counters of a journal -/

/-- How many writes a stage passed on, the last one to the client. -/
def passed (j : Journal) (es : List Event) (s : Stage) : Nat :=
  match s.next with
  | some t => (j.queue t).pushed
  | none => (es.filterMap Event.notified?).length

/-- The counters agree with the queues, the workers and the history. -/
structure Tally (j : Journal) (es : List Event) : Prop where
  queued : ∀ s, (j.queue s).pushed = (j.queue s).popped + (j.queue s).items.length
  accepted : (j.queue .metadata).pushed = (es.filterMap Event.accepted?).length
  workers : ∀ s, (j.workers.get s).Tallies (j.queue s).popped (j.passed es s)

/-- The queue that a stage has after a `setQueue`. -/
theorem queue_setQueue (j : Journal) (s t : Stage) (m : Queue.Monitor Actor WriteId) :
    (j.setQueue s m).queue t = if t = s then m.queue else j.queue t := by
  simp only [queue, setQueue, PerStage.get_set]
  split <;> rfl

/-- What a queue has in common with the one that replaces it (`setQueue`) is the same everywhere. -/
theorem queue_setQueue_eq {β : Type} {m : Queue.Monitor Actor WriteId} (f : Queue WriteId → β)
    (h : f m.queue = f (j.queue s)) (t : Stage) :
    f ((j.setQueue s m).queue t) = f (j.queue t) := by
  rw [queue_setQueue]
  split
  · rename_i ht
    rw [ht, h]
  · rfl

/-- The worker that a stage has after a `setPhase`: its counter is the same. -/
theorem worker_setPhase (j : Journal) (s t : Stage) (phase : Phase) :
    (j.setPhase s phase).workers.get t =
      if t = s then { j.workers.get s with phase } else j.workers.get t := by
  rw [setPhase, PerStage.get_set]

/-! ## Steps that count nothing -/

/-- Two queues with the same counters that hold equally many values. -/
structure SameCounts (q q' : Queue WriteId) : Prop where
  pushed : q'.pushed = q.pushed
  popped : q'.popped = q.popped
  length : q'.items.length = q.items.length

theorem SameCounts.refl (q : Queue WriteId) : SameCounts q q := ⟨rfl, rfl, rfl⟩

theorem sameCounts_setQueue {m : Queue.Monitor Actor WriteId} (h : SameCounts (j.queue s) m.queue)
    (t : Stage) : SameCounts (j.queue t) ((j.setQueue s m).queue t) :=
  ⟨queue_setQueue_eq Queue.pushed h.pushed t, queue_setQueue_eq Queue.popped h.popped t,
    queue_setQueue_eq (·.items.length) h.length t⟩

/-- Without an acceptance or a notification in it, a step passes on what the queues say: `passed` of
each stage is what the next one took in. -/
private theorem passed_eq (hqueues : ∀ t, SameCounts (j.queue t) (j'.queue t))
    (hnotified : es'.filterMap Event.notified? = []) (s : Stage) :
    j'.passed (es ++ es') s = j.passed es s := by
  unfold passed
  split
  · exact (hqueues _).pushed
  · rw [List.filterMap_append, hnotified, List.append_nil]

/-- A step in which no queue, no worker, nobody accepted and no client counts anything keeps the
`Tally`. -/
private theorem Tally.same (h : j.Tally es) (hqueues : ∀ t, SameCounts (j.queue t) (j'.queue t))
    (hworkers : ∀ t, (j'.workers.get t).processed = (j.workers.get t).processed ∧
      ((j'.workers.get t).phase.isOver = false → (j.workers.get t).phase.isOver = false ∧
        (j'.workers.get t).phase.unprocessed = (j.workers.get t).phase.unprocessed ∧
        (j'.workers.get t).phase.unpassed = (j.workers.get t).phase.unpassed))
    (hes : es'.filterMap Event.notified? = [] ∧ es'.filterMap Event.accepted? = []) :
    j'.Tally (es ++ es') := by
  obtain ⟨hnotified, haccepted⟩ := hes
  refine ⟨fun t => ?_, ?_, fun t => ?_⟩
  · rw [(hqueues t).pushed, (hqueues t).popped, (hqueues t).length]
    exact h.queued t
  · rw [(hqueues .metadata).pushed, List.filterMap_append, haccepted, List.append_nil]
    exact h.accepted
  · rw [(hqueues t).popped, passed_eq hqueues hnotified]
    exact (h.workers t).same (hworkers t).1 (hworkers t).2

/-- A step in which the workers do nothing keeps the `Tally` if the queues do. -/
private theorem Tally.still (h : j.Tally es) (hqueues : ∀ t, SameCounts (j.queue t) (j'.queue t))
    (hworkers : j'.workers = j.workers)
    (hes : es'.filterMap Event.notified? = [] ∧ es'.filterMap Event.accepted? = []) :
    j'.Tally (es ++ es') :=
  h.same hqueues (fun t => by rw [hworkers]; exact ⟨rfl, fun halive => ⟨halive, rfl, rfl⟩⟩) hes

/-- A worker that goes on with the write that it has, or comes to its end, keeps the `Tally`. -/
private theorem Tally.rephase {phase : Phase} (h : j.Tally es)
    (hqueues : ∀ t, SameCounts (j.queue t) (j'.queue t)) (hworkers : j'.workers = j.workers)
    (hphase : phase.isOver = false → (j.workers.get s).phase.isOver = false ∧
      phase.unprocessed = (j.workers.get s).phase.unprocessed ∧
      phase.unpassed = (j.workers.get s).phase.unpassed)
    (hes : es'.filterMap Event.notified? = [] ∧ es'.filterMap Event.accepted? = []) :
    (j'.setPhase s phase).Tally (es ++ es') := by
  refine h.same hqueues (fun t => ?_) hes
  rw [worker_setPhase, hworkers]
  split
  · rename_i ht
    rw [ht]
    exact ⟨rfl, hphase⟩
  · exact ⟨rfl, fun halive => ⟨halive, rfl, rfl⟩⟩

/-! ## Steps that count -/

/-- A worker that goes on counts exactly: its phase says what is `unprocessed` and what is
`unpassed`. -/
private theorem Tally.eq_of_phase {phase : Phase} {unprocessed unpassed : Nat} (h : j.Tally es)
    (hphase : (j.workers.get s).phase = phase) (halive : phase.isOver = false)
    (hunprocessed : phase.unprocessed = unprocessed) (hunpassed : phase.unpassed = unpassed) :
    (j.queue s).popped = (j.workers.get s).processed + unprocessed ∧
      (j.workers.get s).processed = j.passed es s + unpassed := by
  subst hphase hunprocessed hunpassed
  exact (h.workers s).eq_of_alive halive

/-- In each queue `pushed` is `popped` and what it holds, if this is so in the one that changes. -/
private theorem Tally.queued_setQueue {m : Queue.Monitor Actor WriteId} (h : j.Tally es)
    (hm : m.queue.pushed = m.queue.popped + m.queue.items.length) (t : Stage) :
    ((j.setQueue s m).queue t).pushed =
      ((j.setQueue s m).queue t).popped + ((j.setQueue s m).queue t).items.length := by
  rw [queue_setQueue]
  split
  · exact hm
  · exact h.queued t

/-- A step in which one worker takes a write, takes it past its join or passes it on keeps the
`Tally`. -/
private theorem Tally.turn (h : j.Tally es) (s : Stage)
    (hqueued : ∀ t, (j'.queue t).pushed = (j'.queue t).popped + (j'.queue t).items.length)
    (haccepted : (j'.queue .metadata).pushed = (es'.filterMap Event.accepted?).length)
    (hothers : ∀ t, t ≠ s → j'.workers.get t = j.workers.get t ∧
      (j'.queue t).popped = (j.queue t).popped ∧ j'.passed es' t = j.passed es t)
    (hself : (j'.workers.get s).Tallies (j'.queue s).popped (j'.passed es' s)) : j'.Tally es' := by
  refine ⟨hqueued, haccepted, fun t => ?_⟩
  by_cases ht : t = s
  · subst ht
    exact hself
  · obtain ⟨hworker, hpopped, hpassed⟩ := hothers t ht
    rw [hworker, hpopped, hpassed]
    exact h.workers t

/-- A worker that takes a write counts it as `popped`, and has it `unprocessed`. -/
private theorem Tally.take {id : WriteId} {first : Bool} {m : Queue.Monitor Actor WriteId}
    (h : j.Tally es) (hphase : (j.workers.get s).phase = if first then .popping else .awaitingItem)
    (hvisit : (j.queues.get s).Visit (.worker s) .pop first m (some (.item id)))
    (hitems : (j.queue s).items = id :: m.queue.items) :
    ((j.setQueue s m).setPhase s (.issuing id s.operations)).Tally es := by
  obtain ⟨hpush, hpop, -⟩ := hvisit.pop_counts
  have hpush : m.queue.pushed = (j.queue s).pushed := hpush
  have hpop : m.queue.popped = (j.queue s).popped + 1 := hpop id rfl
  -- Nothing was pushed, so no stage passed anything on.
  have hpushed := queue_setQueue_eq (m := m) Queue.pushed hpush
  have hpassed (t : Stage) : ((j.setQueue s m).setPhase s (.issuing id s.operations)).passed es t =
      j.passed es t := by
    unfold passed
    split
    · exact hpushed _
    · rfl
  refine h.turn s (h.queued_setQueue ?_) ((hpushed _).trans h.accepted)
    (fun t ht => ⟨?_, ?_, hpassed t⟩) ?_
  · have hold := h.queued s
    rw [hitems, List.length_cons] at hold
    omega
  · rw [worker_setPhase, if_neg ht]
    rfl
  · exact congrArg Queue.popped ((queue_setQueue j s t m).trans (if_neg ht))
  · -- A worker that pops has no write.
    have hpopping : (j.queue s).popped = (j.workers.get s).processed + 0 ∧
        (j.workers.get s).processed = j.passed es s + 0 := by
      refine h.eq_of_phase hphase ?_ ?_ ?_ <;> cases first <;> rfl
    have hqueue : ((j.setQueue s m).setPhase s (.issuing id s.operations)).queue s = m.queue :=
      (queue_setQueue j s s m).trans (if_pos rfl)
    rw [hqueue, hpassed, worker_setPhase, if_pos rfl, hpop]
    exact .of_eq 1 0 (congrArg (· + 1) hpopping.1) hpopping.2 (by decide) fun _ => ⟨rfl, rfl⟩

/-- A worker whose join holds counts its write as `processed`, and has it `unpassed`. -/
private theorem Tally.advance {id : WriteId} (h : j.Tally es) (hqueues : j'.queues = j.queues)
    (hworkers : j'.workers = j.workers) {phase : Phase}
    (hphase : (j.workers.get s).phase = phase) (halive : phase.isOver = false)
    (hunprocessed : phase.unprocessed = 1) (hunpassed : phase.unpassed = 0) :
    (j'.advance s id).1.Tally (es ++ (j'.advance s id).2) := by
  have hqueue (t : Stage) : (j'.advance s id).1.queue t = j.queue t := by
    simp only [queue, Journal.advance, hqueues]
  have hnotified : (j'.advance s id).2.filterMap Event.notified? = [] := by
    cases s <;> rfl
  have haccepted : (j'.advance s id).2.filterMap Event.accepted? = [] := by
    cases s <;> rfl
  -- The queues are as they were, so only the counter of the worker goes up.
  have hsame (t : Stage) : SameCounts (j.queue t) ((j'.advance s id).1.queue t) := by
    rw [hqueue]
    exact .refl _
  refine h.turn s (fun t => ?_) ?_ (fun t ht => ⟨?_, ?_, passed_eq hsame hnotified t⟩) ?_
  · rw [hqueue]
    exact h.queued t
  · rw [hqueue, List.filterMap_append, haccepted, List.append_nil]
    exact h.accepted
  · rw [Journal.advance, PerStage.get_set, if_neg ht, hworkers]
  · rw [hqueue]
  · obtain ⟨hpopped, hprocessed⟩ := h.eq_of_phase hphase halive hunprocessed hunpassed
    rw [hqueue, passed_eq hsame hnotified, Journal.advance, PerStage.get_set, if_pos rfl, hworkers]
    refine .of_eq 0 1 hpopped (congrArg (· + 1) hprocessed) (by decide) fun _ => ?_
    cases s <;> exact ⟨rfl, rfl⟩

/-- A worker that finds room has passed its write on, which the next queue counts as `pushed`. -/
private theorem Tally.pass {id : WriteId} {first : Bool} {m : Queue.Monitor Actor WriteId}
    (h : j.Tally es) (hnext : s.next = some t)
    (hphase : (j.workers.get s).phase = if first then .pushing id else .awaitingRoom id)
    (hvisit : (j.queues.get t).Visit (.worker s) (.push id) first m (some .pushed))
    (hitems : m.queue.items = (j.queue t).items ++ [id]) :
    ((j.setQueue t m).setPhase s .popping).Tally es := by
  obtain ⟨hpop, hpush, -⟩ := hvisit.push_counts
  have hpop : m.queue.popped = (j.queue t).popped := hpop
  have hpush : m.queue.pushed = (j.queue t).pushed + 1 := hpush rfl
  have hpopped := queue_setQueue_eq (m := m) Queue.popped hpop
  have hqueue (u : Stage) (hu : u ≠ t) :
      ((j.setQueue t m).setPhase s .popping).queue u = j.queue u :=
    (queue_setQueue j t u m).trans (if_neg hu)
  refine h.turn s (h.queued_setQueue ?_) ?_ (fun u hu => ⟨?_, hpopped u, ?_⟩) ?_
  · have hold := h.queued t
    rw [hitems, List.length_append, List.length_singleton]
    omega
  · -- A worker passes nothing on to the first queue.
    rw [hqueue _ (by rintro rfl; cases s <;> exact nomatch hnext)]
    exact h.accepted
  · rw [worker_setPhase, if_neg hu]
    rfl
  · -- Nobody else passes its writes on to this queue.
    unfold passed
    split
    · rename_i u' hnext'
      rw [hqueue]
      rintro rfl
      have hindex := (Stage.index_next hnext').symm.trans (Stage.index_next hnext)
      exact hu (Stage.index_inj (Nat.succ.inj hindex))
    · rfl
  · -- A worker that pushes has a write that passed its join.
    have hpushing : (j.queue s).popped = (j.workers.get s).processed + 0 ∧
        (j.workers.get s).processed = j.passed es s + 1 := by
      refine h.eq_of_phase hphase ?_ ?_ ?_ <;> cases first <;> rfl
    have hpassed : ((j.setQueue t m).setPhase s .popping).passed es s = j.passed es s + 1 := by
      have hself : ((j.setQueue t m).setPhase s .popping).queue t = m.queue :=
        (queue_setQueue j t t m).trans (if_pos rfl)
      simp only [passed, hnext, hself, hpush]
    have hpopped : (((j.setQueue t m).setPhase s .popping).queue s).popped =
        (j.queue s).popped := hpopped s
    rw [hpopped, hpassed, worker_setPhase, if_pos rfl]
    exact .of_eq 0 0 hpushing.1 hpushing.2 (by decide) fun _ => ⟨rfl, rfl⟩

/-- The last worker passes a write on when it tells the client (`notify`), which the history
counts. -/
private theorem Tally.notify {id : WriteId} {panics : Bool} (h : j.Tally es)
    (hlast : s.next = none) (hphase : (j.workers.get s).phase = .notifying id) :
    (j.notify s id panics).1.Tally (es ++ (j.notify s id panics).2) := by
  -- The last stage passes its writes on to the client, the others to their queues.
  have hpassed (t : Stage) : (j.notify s id panics).1.passed (es ++ [.notified id]) t =
      if t = s then j.passed es t + 1 else j.passed es t := by
    unfold passed
    split
    · rename_i hnext
      rw [if_neg (by rintro rfl; rw [hlast] at hnext; exact nomatch hnext)]
      rfl
    · rename_i hnext
      have hself := (Stage.eq_checkpoint_of_last hnext).trans
        (Stage.eq_checkpoint_of_last hlast).symm
      rw [if_pos hself, List.filterMap_append, List.length_append]
      rfl
  refine h.turn s h.queued ?_ (fun t ht => ⟨?_, rfl, ?_⟩) ?_
  · have haccepted : (j.notify s id panics).2.filterMap Event.accepted? = [] := rfl
    rw [List.filterMap_append, haccepted, List.append_nil]
    exact h.accepted
  · rw [Journal.notify, worker_setPhase, if_neg ht]
  · exact (hpassed t).trans (if_neg ht)
  · obtain ⟨hpopped, hprocessed⟩ := h.eq_of_phase hphase rfl rfl rfl
    rw [show (j.notify s id panics).2 = [.notified id] from rfl, hpassed, if_pos rfl,
      Journal.notify, worker_setPhase, if_pos rfl]
    refine .of_eq 0 0 hpopped hprocessed (by decide) fun _ => ?_
    cases panics <;> exact ⟨rfl, rfl⟩

/-- A write that is accepted is counted as `pushed` by the first queue, and by the history. -/
private theorem Tally.accept {k : Nat} {id : WriteId} {first : Bool} {caller : Caller}
    {m : Queue.Monitor Actor WriteId} (h : j.Tally es)
    (hvisit : (j.queues.get .metadata).Visit (.caller k) (.push id) first m (some .pushed))
    (hitems : m.queue.items = (j.queue .metadata).items ++ [id]) :
    ((j.setQueue .metadata m).setCaller k caller).Tally (es ++ [.accepted id]) := by
  obtain ⟨hpop, hpush, -⟩ := hvisit.push_counts
  have hpop : m.queue.popped = (j.queue .metadata).popped := hpop
  have hpush : m.queue.pushed = (j.queue .metadata).pushed + 1 := hpush rfl
  have hqueue (t : Stage) : ((j.setQueue .metadata m).setCaller k caller).queue t =
      if t = .metadata then m.queue else j.queue t := queue_setQueue j .metadata t m
  refine ⟨h.queued_setQueue ?_, ?_, fun t => ?_⟩
  · have hold := h.queued .metadata
    rw [hitems, List.length_append, List.length_singleton]
    omega
  · rw [hqueue, if_pos rfl, hpush, h.accepted, List.filterMap_append, List.length_append]
    rfl
  · have hpopped : (((j.setQueue .metadata m).setCaller k caller).queue t).popped =
        (j.queue t).popped := queue_setQueue_eq (m := m) Queue.popped hpop t
    -- No worker passes its writes on to the first queue.
    have hpassed : ((j.setQueue .metadata m).setCaller k caller).passed (es ++ [.accepted id]) t =
        j.passed es t := by
      unfold passed
      split
      · rename_i hnext
        rw [hqueue, if_neg (by rintro rfl; cases t <;> exact nomatch hnext)]
      · simp [Event.notified?]
    rw [hpopped, hpassed]
    exact h.workers t

/-! ## Every step -/

/-- A worker that looks into its queue keeps the `Tally`, whatever the answer is. -/
private theorem Tally.pop {first : Bool} {m : Queue.Monitor Actor WriteId}
    {r : Option (Queue.Reply WriteId)} (h : j.Tally es)
    (hphase : (j.workers.get s).phase = if first then .popping else .awaitingItem)
    (hvisit : (j.queues.get s).Visit (.worker s) .pop first m r) :
    ((j.setQueue s m).afterPop s r).1.Tally (es ++ ((j.setQueue s m).afterPop s r).2) := by
  obtain ⟨hpush, -, hpop⟩ := hvisit.pop_counts
  rcases hvisit.pop_cases with ⟨id, rfl, hitems, -⟩ | ⟨rfl, -, hitems, -⟩ | ⟨rfl, hitems, -⟩
  · simp only [afterPop, List.append_nil]
    exact h.take hphase hvisit hitems
  · have hsame : SameCounts (j.queue s) m.queue := ⟨hpush, hpop (by simp), congrArg _ hitems⟩
    exact h.rephase (sameCounts_setQueue hsame) rfl (by simp [Phase.isOver]) ⟨rfl, rfl⟩
  · have hsame : SameCounts (j.queue s) m.queue := ⟨hpush, hpop (by simp), congrArg _ hitems⟩
    refine h.rephase (sameCounts_setQueue hsame) rfl (fun _ => ?_) ⟨rfl, rfl⟩
    rw [hphase]
    cases first <;> exact ⟨rfl, rfl, rfl⟩

/-- A worker that looks for room keeps the `Tally`, whatever the answer is. -/
private theorem Tally.push {id : WriteId} {first : Bool} {m : Queue.Monitor Actor WriteId}
    {r : Option (Queue.Reply WriteId)} (h : j.Tally es) (hnext : s.next = some t)
    (hphase : (j.workers.get s).phase = if first then .pushing id else .awaitingRoom id)
    (hvisit : (j.queues.get t).Visit (.worker s) (.push id) first m r) :
    ((j.setQueue t m).afterPush s t id first r).1.Tally
      (es ++ ((j.setQueue t m).afterPush s t id first r).2) := by
  obtain ⟨hpop, -, hpush⟩ := hvisit.push_counts
  rcases hvisit.push_cases with ⟨rfl, -, hitems, -⟩ | ⟨rfl, -, hitems, -⟩ | ⟨rfl, hitems, -⟩
  · simp only [afterPush, List.append_nil]
    exact h.pass hnext hphase hvisit hitems
  · have hsame : SameCounts (j.queue t) m.queue := ⟨hpush (by simp), hpop, congrArg _ hitems⟩
    exact h.rephase (sameCounts_setQueue hsame) rfl (by simp [Phase.isOver]) ⟨rfl, rfl⟩
  · have hsame : SameCounts (j.queue t) m.queue := ⟨hpush (by simp), hpop, congrArg _ hitems⟩
    refine h.rephase (sameCounts_setQueue hsame) rfl (fun _ => ?_) ?_
    · rw [hphase]
      cases first <;> exact ⟨rfl, rfl, rfl⟩
    · cases first <;> exact ⟨rfl, rfl⟩

/-- A submitter that looks for room keeps the `Tally`, whatever the answer is. -/
private theorem Tally.submit {k : Nat} {id : WriteId} {left : List WriteId}
    {answers : List (Option JournalError)} {first : Bool} {m : Queue.Monitor Actor WriteId}
    {r : Option (Queue.Reply WriteId)} (h : j.Tally es)
    (hvisit : (j.queues.get .metadata).Visit (.caller k) (.push id) first m r) :
    ((j.setQueue .metadata m).afterSubmit k id left answers first r).1.Tally
      (es ++ ((j.setQueue .metadata m).afterSubmit k id left answers first r).2) := by
  obtain ⟨hpop, -, hpush⟩ := hvisit.push_counts
  rcases hvisit.push_cases with ⟨rfl, -, hitems, -⟩ | ⟨rfl, -, hitems, -⟩ | ⟨rfl, hitems, -⟩
  · exact h.accept hvisit hitems
  · have hsame : SameCounts (j.queue .metadata) m.queue := ⟨hpush nofun, hpop, congrArg _ hitems⟩
    exact h.still (sameCounts_setQueue hsame) rfl ⟨rfl, rfl⟩
  · have hsame : SameCounts (j.queue .metadata) m.queue := ⟨hpush nofun, hpop, congrArg _ hitems⟩
    refine h.still (sameCounts_setQueue hsame) rfl ?_
    cases first <;> exact ⟨rfl, rfl⟩

/-- A worker that looks for its join keeps the `Tally`, whatever the answer is. -/
private theorem Tally.join {id : WriteId} {first : Bool} {m : Table.Monitor Actor}
    {r : Option Table.Reply} (h : j.Tally es)
    (hphase : (j.workers.get s).phase = if first then .issuing id [] else .awaitingJoin id)
    (hvisit : j.table.Visit (.worker s) (.join id s) first m r) :
    ({ j with table := m }.afterJoin s id r).1.Tally
      (es ++ ({ j with table := m }.afterJoin s id r).2) := by
  have hqueues (t : Stage) : SameCounts (j.queue t) (j.queue t) := .refl _
  obtain ⟨-, ⟨-, rfl, -⟩ | ⟨rfl, -⟩ | ⟨f, rfl, -⟩ | ⟨rfl, -⟩⟩ := hvisit.join_cases
  · refine h.advance rfl rfl hphase ?_ ?_ ?_ <;> cases first <;> rfl
  · exact h.rephase hqueues rfl nofun ⟨rfl, rfl⟩
  · exact h.rephase hqueues rfl nofun ⟨rfl, rfl⟩
  · refine h.rephase hqueues rfl (fun _ => ?_) ⟨rfl, rfl⟩
    rw [hphase]
    cases first <;> exact ⟨rfl, rfl, rfl⟩

/-- What a step of a journal does to its counters keeps the `Tally`: one case for each `Change`. -/
theorem Change.tally {action : Action} {step : Step} (hchange : Change j action step)
    (hsuits : ∀ s, Pipeline.Suits s (j.pipeline.workers.get s)) (h : j.Tally es) :
    step.1.Tally (es ++ step.2) := by
  have hqueues (t : Stage) : SameCounts (j.queue t) (j.queue t) := .refl _
  -- What takes a write from one counter to the next has a lemma of its own above. All other changes
  -- leave the counters alone.
  cases hchange with
  | deliver hdeliver =>
    refine h.still (sameCounts_setQueue ?_) rfl ⟨rfl, rfl⟩
    rw [Queue.Monitor.deliver_queue hdeliver]
    exact .refl _
  | pop hphase hvisit => exact h.pop hphase hvisit
  | @record s id op left hphase =>
    unfold Journal.record
    split
    · rename_i m g hissue
      refine h.rephase hqueues rfl (fun _ => ?_) ⟨rfl, rfl⟩
      rw [hphase]
      exact ⟨rfl, rfl, rfl⟩
    · exact h.rephase hqueues rfl nofun ⟨rfl, rfl⟩
  | @hand s token left hphase =>
    refine h.rephase hqueues rfl (fun _ => ?_) ⟨rfl, rfl⟩
    rw [hphase]
    exact ⟨rfl, rfl, rfl⟩
  | join hphase hvisit => exact h.join hphase hvisit
  | push hnext hphase hvisit => exact h.push hnext hphase hvisit
  | @notify s id hphase =>
    have hlast := hsuits s
    rw [workers_pipeline, hphase] at hlast
    exact h.notify hlast hphase
  | @mark s id hphase =>
    unfold Journal.mark
    split
    · rename_i m released hmark
      refine h.rephase hqueues rfl (fun _ => ?_) ⟨rfl, rfl⟩
      rw [hphase]
      exact ⟨rfl, rfl, rfl⟩
    · exact h.rephase hqueues rfl nofun ⟨rfl, rfl⟩
  | acquire hcaller hvisit =>
    rcases hvisit.slot_cases with ⟨g, rfl, -⟩ | ⟨e, rfl, -⟩ | ⟨rfl, -⟩ <;>
      exact h.still hqueues rfl ⟨rfl, rfl⟩
  | submit hcaller hvisit => exact h.submit hvisit
  | @drain k first m r =>
    cases r <;> exact h.still hqueues rfl ⟨rfl, rfl⟩
  | close hclosing => exact h.still (sameCounts_setQueue ⟨rfl, rfl, rfl⟩) rfl ⟨rfl, rfl⟩
  | abort => exact h.still hqueues rfl ⟨rfl, rfl⟩
  | gone hclosing hnot hes =>
    refine h.still hqueues rfl ⟨?_, ?_⟩ <;>
    · refine List.filterMap_eq_nil_iff.mpr fun e he => ?_
      rcases hes e he with rfl | rfl <;> rfl
  | arrive | await => exact h.still hqueues rfl ⟨rfl, rfl⟩
  | complete => exact h.still hqueues rfl ⟨rfl, rfl⟩
  | drop => exact h.still hqueues rfl ⟨rfl, rfl⟩
  | report => exact h.still hqueues rfl ⟨rfl, rfl⟩
  | shutDown => exact h.still hqueues rfl ⟨rfl, rfl⟩
  | shutDownAgain => exact h.still hqueues rfl ⟨rfl, rfl⟩
  | clientPanic hphase => exact h.notify rfl hphase
  | @devicePanic s token left hphase =>
    exact h.rephase hqueues rfl nofun ⟨rfl, rfl⟩

/-- The counters of a journal agree with its queues, its workers and its history (`Tally`) along
every run. -/
theorem Run.tally (h : Run c as j es) : j.Tally es := by
  induction h with
  | start hstart =>
    -- Everything is at zero.
    obtain ⟨-, -, rfl, rfl⟩ := start_eq_ok hstart
    refine ⟨fun t => ?_, rfl, fun t => ?_⟩
    · cases t <;> rfl
    · cases t <;> exact .of_eq 0 0 rfl rfl (by decide) fun _ => ⟨rfl, rfl⟩
  | step hrun hstep ih =>
    exact (change_of_step hrun.attended hstep).tally hrun.pipeline.suited ih

end Journal

end WriteAhead
