import WriteAhead.Proofs.Journal.Change
import WriteAhead.Proofs.Journal.Pipeline

/-!
# What a journal does to its pipeline

Every step of a journal is a move of its pipeline. A caller that falls asleep, one that is woken and
one that only sends a notification do not move it at all.

## Key results

- `move_of_change`: what a step of a journal does to its pipeline
- `Run.pipeline`: a run of a journal is a run of its pipeline
-/

namespace WriteAhead

/-! ## Values for each stage -/

namespace PerStage

variable {α β : Type}

/-- Applies a function to the value of each stage. -/
def map (f : α → β) (x : PerStage α) : PerStage β := ⟨f x.metadata, f x.commit, f x.checkpoint⟩

/-- The value that `map` leaves for a stage is the function of its own. -/
@[simp]
theorem get_map (f : α → β) (x : PerStage α) (s : Stage) : (x.map f).get s = f (x.get s) := by
  cases s <;> rfl

theorem map_set (f : α → β) (x : PerStage α) (s : Stage) (a : α) :
    (x.set s a).map f = (x.map f).set s (f a) := by
  cases s <;> rfl

theorem set_get (x : PerStage α) (s : Stage) : x.set s (x.get s) = x := by
  cases s <;> rfl

theorem map_set_of_eq {f : α → β} {x : PerStage α} {s : Stage} {a : α} (h : f a = f (x.get s)) :
    (x.set s a).map f = x.map f := by
  rw [map_set, h, ← get_map f, set_get]

end PerStage

/-- The phase of a worker that has been woken: it is about to look again. -/
def Phase.awake : Phase → Phase
  | .awaitingItem => .popping
  | .awaitingJoin id => .issuing id []
  | .awaitingRoom id => .pushing id
  | p => p

/-- A worker that sleeps is not over, so `awake` does not change whether it is. -/
theorem Phase.isOver_awake (p : Phase) : p.awake.isOver = p.isOver := by cases p <;> rfl

namespace Journal

variable {j j' : Journal} {s t : Stage}

/-- What is left of a journal without its waiting: each worker is in its `awake` phase, and of the
queues the values stay and whether they are closed. -/
def pipeline (j : Journal) : Pipeline where
  table := j.table.table
  admitted := j.callers.filterMap Caller.held?
  lines := j.queues.map (·.queue.items)
  closed := j.queues.map (·.queue.closed)
  workers := j.workers.map (·.phase.awake)
  outstanding := j.outstanding
  closing := j.closing

/-! ## Parts of the pipeline -/

/-- In `workers` the pipeline has the phase of each worker, awake. -/
theorem workers_pipeline (j : Journal) (s : Stage) :
    j.pipeline.workers.get s = (j.workers.get s).phase.awake := PerStage.get_map ..

/-- In `lines` the pipeline has the `items` of each queue. -/
theorem lines_pipeline (j : Journal) (s : Stage) :
    j.pipeline.lines.get s = (j.queue s).items := PerStage.get_map ..

/-- In `closed` the pipeline has which queues are closed. -/
theorem closed_pipeline (j : Journal) (s : Stage) :
    j.pipeline.closed.get s = (j.queue s).closed := PerStage.get_map ..

/-- By `setPhase` the worker goes into the phase in the pipeline as well, awake. -/
theorem pipeline_setPhase (j : Journal) (s : Stage) (phase : Phase) :
    (j.setPhase s phase).pipeline = j.pipeline.setPhase s phase.awake := by
  simp only [pipeline, setPhase, Pipeline.setPhase, PerStage.map_set]

/-- The pipeline does not see a worker fall asleep or wake: `setPhase` between two phases with the
same `awake` leaves it as it is. -/
theorem pipeline_setPhase_of_awake {phase : Phase}
    (h : phase.awake = (j.workers.get s).phase.awake) :
    (j.setPhase s phase).pipeline = j.pipeline := by
  rw [pipeline_setPhase, h, ← workers_pipeline, Pipeline.setPhase, PerStage.set_get]

/-- The pipeline does not see the callers at a queue: `setQueue` leaves it as it is if the values
are the same and the queue is as open as before. -/
theorem pipeline_setQueue_of_eq {m : Queue.Monitor Actor WriteId}
    (hitems : m.queue.items = (j.queue s).items) (hclosed : m.queue.closed = (j.queue s).closed) :
    (j.setQueue s m).pipeline = j.pipeline := by
  simp only [pipeline, setQueue]
  rw [PerStage.map_set_of_eq hitems, PerStage.map_set_of_eq hclosed]

/-- The pipeline sees of a `setQueue` that leaves the queue as open as it was the new values in the
line of the stage, and nothing else. -/
theorem pipeline_setQueue_items {m : Queue.Monitor Actor WriteId}
    (hclosed : m.queue.closed = (j.queue s).closed) :
    (j.setQueue s m).pipeline =
      { j.pipeline with lines := j.pipeline.lines.set s m.queue.items } := by
  simp only [pipeline, setQueue]
  rw [PerStage.map_set, PerStage.map_set_of_eq hclosed]

/-- The pipeline sees of a `setCaller` which writes callers hold then (`Caller.held?`). -/
theorem pipeline_setCaller (j : Journal) (k : Nat) (c : Caller) :
    (j.setCaller k c).pipeline =
      { j.pipeline with admitted := (j.callers.set k c).filterMap Caller.held? } := rfl

/-- The pipeline does not see a caller go on that holds the same write (`held?`) before and after,
such as one that falls asleep. -/
theorem pipeline_setCaller_of_held {k : Nat} {c₀ c : Caller} (hcaller : j.callers[k]? = some c₀)
    (h : c.held? = c₀.held?) : (j.setCaller k c).pipeline = j.pipeline := by
  rw [pipeline_setCaller, List.filterMap_set_eq hcaller h]
  rfl

/-- The pipeline does not see a new caller by `call`, which has no slot yet and so holds no
write. -/
theorem pipeline_call (j : Journal) {c : Caller} (hheld : c.held? = none) :
    (j.call c).pipeline = j.pipeline := by
  simp only [pipeline, Journal.call, List.filterMap_append, List.filterMap_cons, hheld,
    List.filterMap_nil, List.append_nil]

/-- The pipeline does not see who waits at the table, only the `Table` itself. -/
theorem pipeline_setTable_of_eq {m : Table.Monitor Actor} (h : m.table = j.table.table) :
    ({ j with table := m } : Journal).pipeline = j.pipeline := by
  simp only [pipeline, h]

/-! ## Every change is a move -/

open Pipeline (Move)

/-- A worker that looks into its queue (`afterPop`) takes the first write of its line, ends with a
closed line, or does not move the pipeline. -/
private theorem move_pop {first : Bool} {m : Queue.Monitor Actor WriteId}
    {r : Option (Queue.Reply WriteId)}
    (hphase : (j.workers.get s).phase = if first then .popping else .awaitingItem)
    (hvisit : (j.queues.get s).Visit (.worker s) .pop first m r) :
    j.pipeline.Move (.act (.worker s)) ((j.setQueue s m).afterPop s r).2
      ((j.setQueue s m).afterPop s r).1.pipeline := by
  have hworker : j.pipeline.workers.get s = .popping := by
    rw [workers_pipeline, hphase]; cases first <;> rfl
  rcases hvisit.pop_cases with ⟨id, rfl, hitems, hsame⟩ | ⟨rfl, hclosed, hitems, hsame⟩ |
    ⟨rfl, hitems, hsame⟩
  · -- a write
    simp only [afterPop]
    rw [pipeline_setPhase, pipeline_setQueue_items hsame]
    exact .take hworker (by rw [lines_pipeline]; exact hitems)
  · -- the end of the queue
    simp only [afterPop]
    rw [pipeline_setPhase, pipeline_setQueue_of_eq hitems hsame]
    exact .stop (by simp [Event.isNote]) (.inl ⟨s, by rw [closed_pipeline]; exact hclosed⟩)
  · -- nothing yet: the worker falls asleep, which the pipeline does not see
    simp only [afterPop]
    rw [pipeline_setPhase_of_awake (by rw [setQueue, hphase]; cases first <;> rfl),
      pipeline_setQueue_of_eq hitems hsame]
    exact .note (by simp)

/-- A worker that looks for room (`afterPush`) adds its write to the next line, ends at a closed
one, or does not move the pipeline. That it had to wait is a note. -/
private theorem move_push {id : WriteId} {first : Bool} {m : Queue.Monitor Actor WriteId}
    {r : Option (Queue.Reply WriteId)} (hnext : s.next = some t)
    (hphase : (j.workers.get s).phase = if first then .pushing id else .awaitingRoom id)
    (hvisit : (j.queues.get t).Visit (.worker s) (.push id) first m r) :
    j.pipeline.Move (.act (.worker s)) ((j.setQueue t m).afterPush s t id first r).2
      ((j.setQueue t m).afterPush s t id first r).1.pipeline := by
  have hworker : j.pipeline.workers.get s = .pushing id := by
    rw [workers_pipeline, hphase]; cases first <;> rfl
  rcases hvisit.push_cases with ⟨rfl, -, hitems, hsame⟩ | ⟨rfl, hclosed, hitems, hsame⟩ |
    ⟨rfl, hitems, hsame⟩
  · -- a place
    simp only [afterPush]
    rw [pipeline_setPhase, pipeline_setQueue_items hsame, hitems]
    have hline : (j.queues.get t).queue.items = j.pipeline.lines.get t := (lines_pipeline j t).symm
    rw [hline]
    exact .pass hnext hworker
  · -- a closed queue
    simp only [afterPush, stopOn]
    rw [pipeline_setPhase, pipeline_setQueue_of_eq hitems hsame]
    exact .stop (by simp [Event.isNote]) (.inl ⟨t, by rw [closed_pipeline]; exact hclosed⟩)
  · -- no place yet
    simp only [afterPush]
    rw [pipeline_setPhase_of_awake (by rw [setQueue, hphase]; cases first <;> rfl),
      pipeline_setQueue_of_eq hitems hsame]
    refine .note ?_
    split <;> simp [Event.isNote]

/-- A submitter that looks for room (`afterSubmit`) adds its write to the first line, leaves it
without a place if the line is closed, or does not move the pipeline. -/
private theorem move_submit {k : Nat} {id : WriteId} {left : List WriteId}
    {answers : List (Option JournalError)} {first : Bool} {m : Queue.Monitor Actor WriteId}
    {r : Option (Queue.Reply WriteId)}
    (hcaller : j.callers[k]? =
      some (.submitter (if first then .admitted id else .awaitingRoom id) left answers))
    (hvisit : (j.queues.get .metadata).Visit (.caller k) (.push id) first m r) :
    j.pipeline.Move (.act (.caller k))
      ((j.setQueue .metadata m).afterSubmit k id left answers first r).2
      ((j.setQueue .metadata m).afterSubmit k id left answers first r).1.pipeline := by
  have hheld : (Caller.submitter (if first then .admitted id else .awaitingRoom id) left
      answers).held? = some id := by cases first <;> rfl
  -- Whatever the answer is, the caller no longer holds the write, and all others hold theirs.
  have hleave {c : Caller} (hc : c.held? = none) :
      j.pipeline.admitted.Perm (id :: (j.callers.set k c).filterMap Caller.held?) := by
    have hperm := List.filterMap_set_perm hcaller Caller.held? c
    rw [hheld, hc] at hperm
    exact hperm.symm
  rcases hvisit.push_cases with ⟨rfl, hopen, hitems, hsame⟩ | ⟨rfl, hclosed, hitems, hsame⟩ |
    ⟨rfl, hitems, hsame⟩
  · -- a place
    simp only [afterSubmit]
    rw [pipeline_setCaller, pipeline_setQueue_items hsame, hitems]
    exact .accept (by rw [closed_pipeline]; exact hopen) (hleave rfl)
  · -- a closed queue: the caller leaves its write without a place
    simp only [afterSubmit]
    rw [pipeline_setCaller, pipeline_setQueue_of_eq hitems hsame]
    exact .turnAway (by simp [Event.isNote]) (by rw [closed_pipeline]; exact hclosed) (hleave rfl)
  · -- no place yet
    simp only [afterSubmit]
    rw [pipeline_setCaller_of_held (j := j.setQueue .metadata m) hcaller (by rw [hheld]; rfl),
      pipeline_setQueue_of_eq hitems hsame]
    refine .note ?_
    split <;> simp [Event.isNote]

/-- A submitter that looks for a slot (`afterAcquire`) claims it, or does not move the pipeline. -/
private theorem move_acquire {k : Nat} {id : WriteId} {left : List WriteId}
    {answers : List (Option JournalError)} {first : Bool} {m : Table.Monitor Actor}
    {r : Option Table.Reply}
    (hcaller : j.callers[k]? = some (if first then .submitter .between (id :: left) answers
      else .submitter (.awaitingSlot id) left answers))
    (hvisit : j.table.Visit (.caller k) (.slot id) first m r) :
    j.pipeline.Move (.act (.caller k)) ({ j with table := m }.afterAcquire k id left answers r).2
      ({ j with table := m }.afterAcquire k id left answers r).1.pipeline := by
  have hheld : (if first then Caller.submitter .between (id :: left) answers
      else .submitter (.awaitingSlot id) left answers).held? = none := by cases first <;> rfl
  rcases hvisit.slot_cases with ⟨g, rfl, hacquire⟩ | ⟨e, rfl, htable⟩ | ⟨rfl, htable⟩
  · -- the slot: from now on the caller holds the write
    have hperm := List.filterMap_set_perm hcaller Caller.held?
      (.submitter (.admitted id) left answers)
    rw [hheld] at hperm
    simp only [afterAcquire]
    rw [pipeline_setCaller]
    exact .acquire (p := j.pipeline) hacquire hperm
  · -- a refusal
    simp only [afterAcquire]
    rw [pipeline_setCaller_of_held (j := { j with table := m }) hcaller (by rw [hheld]; rfl),
      pipeline_setTable_of_eq htable]
    exact .note (by simp [Event.isNote])
  · -- the slot is in use: the caller falls asleep without the write
    simp only [afterAcquire]
    rw [pipeline_setCaller_of_held (j := { j with table := m }) hcaller (by rw [hheld]; rfl),
      pipeline_setTable_of_eq htable]
    exact .note (by simp [Event.isNote])

/-- A caller that waits for all writes (`afterDrain`) does not move the pipeline: it only reads the
table. -/
private theorem move_drain {k : Nat} {first : Bool} {m : Table.Monitor Actor}
    {r : Option Table.Reply}
    (hcaller : j.callers[k]? = some (.drainer (if first then .entering else .awaiting)))
    (hvisit : j.table.Visit (.caller k) .drain first m r) :
    j.pipeline.Move (.act (.caller k)) ({ j with table := m }.afterDrain k r).2
      ({ j with table := m }.afterDrain k r).1.pipeline := by
  -- Whatever the answer is, the table is only read and the caller holds no write.
  have hsame : ({ j with table := m }.afterDrain k r).1.pipeline = j.pipeline := by
    rw [← pipeline_setTable_of_eq (j := j) hvisit.drain_cases.1]
    cases r with
    | none => exact pipeline_setCaller_of_held (j := { j with table := m }) hcaller rfl
    | some r => exact pipeline_setCaller_of_held (j := { j with table := m }) hcaller rfl
  rw [hsame]
  refine .note ?_
  cases r <;> exact nofun

/-- A worker that looks for its join (`afterJoin`) advances if the join holds, gives up at a table
that is shut down or has no such slot, and does not move the pipeline otherwise. -/
private theorem move_join {id : WriteId} {first : Bool} {m : Table.Monitor Actor}
    {r : Option Table.Reply}
    (hphase : (j.workers.get s).phase = if first then .issuing id [] else .awaitingJoin id)
    (hvisit : j.table.Visit (.worker s) (.join id s) first m r) :
    j.pipeline.Move (.act (.worker s)) ({ j with table := m }.afterJoin s id r).2
      ({ j with table := m }.afterJoin s id r).1.pipeline := by
  have hworker : j.pipeline.workers.get s = .issuing id [] := by
    rw [workers_pipeline, hphase]; cases first <;> rfl
  obtain ⟨htable, ⟨slot, rfl, hslot, hjoin⟩ | ⟨rfl, hdown⟩ | ⟨f, rfl, hslot⟩ | ⟨rfl, -⟩⟩ :=
    hvisit.join_cases
  · -- the join holds
    have hphases : ({ j with table := m }.afterJoin s id (some .joined)).1.pipeline =
        j.pipeline.setPhase s (if s.next = none then .notifying id else .pushing id) := by
      rw [← pipeline_setTable_of_eq htable]
      simp only [afterJoin, advance, pipeline, Pipeline.setPhase, PerStage.map_set]
      -- Only the last stage tells the client and has nowhere to push.
      cases s <;> rfl
    rw [hphases]
    refine .advance ?_ hworker hslot hjoin
    simp only [afterJoin, advance]
    cases s <;> simp [Stage.next, Event.isNote]
  · -- the table is shut down
    simp only [afterJoin, stopOn]
    rw [pipeline_setPhase, pipeline_setTable_of_eq htable]
    exact .stop (by simp [Event.isNote]) (.inr hdown)
  · -- there is no such slot
    simp only [afterJoin]
    rw [pipeline_setPhase, pipeline_setTable_of_eq htable]
    have hheld : (j.pipeline.workers.get s).held? = some id := by
      rw [hworker]
      rfl
    exact .fault hheld (.inr hslot)
  · -- the join does not hold yet
    simp only [afterJoin]
    rw [pipeline_setPhase_of_awake (by rw [hphase]; cases first <;> rfl),
      pipeline_setTable_of_eq htable]
    exact .note (by simp)

/-- A worker that puts an operation on record by `record` moves the pipeline by the issue, or gives
its write up if the table has no slot in use for it. -/
private theorem move_record {id : WriteId} {op : Operation} {left : List Operation}
    (hphase : (j.workers.get s).phase = .issuing id (op :: left)) :
    j.pipeline.Move (.act (.worker s)) (j.record s id op left).2
      (j.record s id op left).1.pipeline := by
  have hworker : j.pipeline.workers.get s = .issuing id (op :: left) := by
    rw [workers_pipeline, hphase]; rfl
  unfold record
  split
  · rename_i m g hissue
    simp only
    rw [pipeline_setPhase]
    exact .record hworker (Table.Monitor.recordIssue_table hissue)
  · rename_i f hissue
    simp only
    rw [pipeline_setPhase]
    exact .fault (by rw [hworker]; rfl) (.inl (Table.Monitor.recordIssue_error hissue))

/-- A worker that marks a checkpoint by `mark` moves the pipeline by the mark, or gives its write up
if the table has no such slot. -/
private theorem move_mark {id : WriteId} (hphase : (j.workers.get s).phase = .marking id) :
    j.pipeline.Move (.act (.worker s)) (j.mark s id).2 (j.mark s id).1.pipeline := by
  have hworker : j.pipeline.workers.get s = .marking id := by
    rw [workers_pipeline, hphase]; rfl
  unfold mark
  split
  · rename_i m released hmark
    simp only
    rw [pipeline_setPhase]
    exact .mark hworker (Table.Monitor.markCheckpointDone_table hmark)
  · rename_i f hmark
    simp only
    rw [pipeline_setPhase]
    exact .fault (by rw [hworker]; rfl) (.inr (Table.Monitor.markCheckpointDone_error hmark))

/-- What a step of a journal does to its pipeline is a `Move`, with the same action and the same
events. -/
theorem move_of_change {action : Action} {step : Step} (h : Change j action step) :
    j.pipeline.Move action step.2 step.1.pipeline := by
  cases h with
  | deliver hdeliver =>
    have hqueue := Queue.Monitor.deliver_queue hdeliver
    rw [pipeline_setQueue_of_eq (congrArg _ hqueue) (congrArg _ hqueue)]
    exact .note (by simp)
  | pop hphase hvisit => exact move_pop hphase hvisit
  | record hphase => exact move_record hphase
  | @hand s t left hphase =>
    simp only [Journal.hand]
    rw [pipeline_setPhase]
    exact .hand (by rw [workers_pipeline, hphase]; rfl)
  | join hphase hvisit => exact move_join hphase hvisit
  | push hnext hphase hvisit => exact move_push hnext hphase hvisit
  | @notify s id hphase =>
    simp only [Journal.notify]
    rw [pipeline_setPhase]
    exact .notify (by rw [workers_pipeline, hphase]; rfl)
  | mark hphase => exact move_mark hphase
  | acquire hcaller hvisit => exact move_acquire hcaller hvisit
  | submit hcaller hvisit => exact move_submit hcaller hvisit
  | drain hcaller hvisit => exact move_drain hcaller hvisit
  | @close s closing hclosing hnot =>
    -- Closing changes the flag of the line only. The values stay.
    have hpipeline :
        ({ j.setQueue s ((j.queues.get s).close .closer) with closing } : Journal).pipeline =
        { j.pipeline with closed := j.pipeline.closed.set s true, closing } := by
      have hlines : (j.queues.set s ((j.queues.get s).close .closer)).map (·.queue.items) =
          j.queues.map (·.queue.items) := PerStage.map_set_of_eq rfl
      simp only [pipeline, setQueue, hlines, PerStage.map_set]
      rfl
    rw [hpipeline]
    exact .close hclosing hnot
  | abort hclosing => exact .abort hclosing
  | @gone s closing es hclosing hnot hes =>
    refine .turn (fun e he => ?_) hnot
    rcases hes e he with rfl | rfl <;> rfl
  | arrive | await =>
    rw [pipeline_call _ rfl]
    exact .note (by simp)
  | complete hmem =>
    exact .complete hmem (Table.Monitor.recordCompletion_table rfl)
  | drop hmem => exact .drop hmem
  | report id op => exact .report (Table.Monitor.recordCompletion_table rfl)
  | shutDown hopen => exact .turn (by simp) (by simp)
  | shutDownAgain => exact .note (by simp)
  | @clientPanic id hphase =>
    simp only [Journal.notify]
    rw [pipeline_setPhase]
    exact .clientPanic (by rw [workers_pipeline, hphase]; rfl)
  | @devicePanic s t left hphase =>
    simp only [Journal.hand]
    rw [pipeline_setPhase]
    exact .devicePanic (by rw [workers_pipeline, hphase]; rfl)

/-- A step of a journal that a run leads to is a `Move` of its pipeline. -/
theorem Run.move {c : Config} {as : List Action} {es es' : List Event} {a : Action}
    (h : Run c as j es) (hstep : j.step a = some (j', es')) :
    j.pipeline.Move a es' j'.pipeline := move_of_change (change_of_step h.attended hstep)

/-- A run of a journal is a `Pipeline.Run` of its pipeline, so what is proved of all pipelines holds
of journals. -/
theorem Run.pipeline {c : Config} {as : List Action} {es : List Event} (h : Run c as j es) :
    Pipeline.Run c as j.pipeline es := by
  induction h with
  | start hstart =>
    obtain ⟨-, -, rfl, rfl⟩ := start_eq_ok hstart
    exact .start (by simp [Event.isNote])
  | step hrun hstep ih => exact ih.move (hrun.move hstep)

end Journal

end WriteAhead
