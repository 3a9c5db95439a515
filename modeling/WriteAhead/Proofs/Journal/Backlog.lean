import WriteAhead.Proofs.Journal.Custody
import WriteAhead.Proofs.Journal.Stillness
import WriteAhead.Proofs.Journal.Tally
import WriteAhead.Proofs.Queue.Sleepers

/-!
# The backlog of a journal

Every write that was accepted and of which the client was not told is in one of the three queues or
with one of the three workers. A queue holds no more than its room and a worker has one write at a
time, so the backlog is bounded whatever the device does. When nobody can go on, the writes in
flight are the backlog and the writes whose submitters wait for room: each has its slot and one
place.

## Key results

- `Run.fits`: no queue holds more than it has room for
- `Run.reconciled`: consecutive counters differ by what is in between
- `Run.inFlight_eq_held`: the slots in use are those of the writes that have a place
- `Run.backlog`: the counters agree at every moment, and with the table whenever the journal is
still
-/

namespace WriteAhead

/-- Whether a request has its slot and waits for room in the first queue. -/
def Caller.awaitsRoom : Caller → Bool
  | .submitter (.awaitingRoom _) _ _ => true
  | _ => false

namespace Journal

variable {c : Config} {as : List Action} {j j' : Journal} {es : List Event} {a : Action}
  {s t : Stage}

/-! ## Room -/

/-- All queues keep to the `bufferSize` (`Fits`) if the one that is replaced does. -/
theorem fits_setQueue {m : Queue.Monitor Actor WriteId}
    (h : ∀ t, (j.queues.get t).Fits c.bufferSize) (hm : m.Fits c.bufferSize) :
    ∀ t, ((j.setQueue s m).queues.get t).Fits c.bufferSize := by
  intro t
  rw [Journal.setQueue, PerStage.get_set]
  split
  · exact hm
  · exact h t

/-- A step puts no more into a queue than it has room for: the length of each stays within
`bufferSize`. -/
theorem Change.fits {step : Step} (hchange : Change j a step)
    (h : ∀ t, (j.queues.get t).Fits c.bufferSize) :
    ∀ t, (step.1.queues.get t).Fits c.bufferSize := by
  cases hchange with
  | @deliver b s m hdeliver =>
    refine fits_setQueue h ?_
    rw [Queue.Monitor.Fits, Queue.Monitor.deliver_queue hdeliver]
    exact h s
  -- Whatever follows from the look, `afterPop` and its like leave the monitors alone.
  | @pop s first m r hphase hvisit =>
    rw [(sameMonitors_afterPop ..).queues_eq]
    exact fits_setQueue h (hvisit.fits (h s))
  | @push s t id first m r hnext hphase hvisit =>
    rw [(sameMonitors_afterPush ..).queues_eq]
    exact fits_setQueue h (hvisit.fits (h t))
  | submit hcaller hvisit =>
    rw [(sameMonitors_afterSubmit ..).queues_eq]
    exact fits_setQueue h (hvisit.fits (h .metadata))
  | join =>
    rw [(sameMonitors_afterJoin ..).queues_eq]
    exact h
  | acquire =>
    rw [(sameMonitors_afterAcquire ..).queues_eq]
    exact h
  | drain =>
    rw [(sameMonitors_afterDrain ..).queues_eq]
    exact h
  | record => unfold Journal.record; split <;> exact h
  | mark => unfold Journal.mark; split <;> exact h
  | @close s => exact fits_setQueue h (h s)
  | _ => exact h

/-- No queue of a run ever holds more than `bufferSize`. -/
theorem Run.fits (hrun : Run c as j es) : ∀ s, (j.queues.get s).Fits c.bufferSize := by
  induction hrun with
  | start hstart =>
    obtain ⟨-, -, rfl, -⟩ := start_eq_ok hstart
    intro s
    cases s <;> exact ⟨rfl, Nat.zero_le _⟩
  | step hrun hstep ih => exact (change_of_step hrun.attended hstep).fits ih

/-! ## Counters -/

/-- Each counter along the pipeline is ahead of the next one by what is in between: by what the
queue holds, or by at most the one write that the worker has. -/
structure Reconciled (c : Config) (j : Journal) (es : List Event) : Prop where
  queued : ∀ s, (j.queue s).pushed = (j.queue s).popped + (j.queue s).items.length
  room : ∀ s, (j.queue s).items.length ≤ c.bufferSize
  processed : ∀ s, j.processed s ≤ (j.queue s).popped ∧ (j.queue s).popped ≤ j.processed s + 1
  popped : ∀ s, j.passed es s ≤ (j.queue s).popped ∧ (j.queue s).popped ≤ j.passed es s + 1
  passed : ∀ s, j.passed es s ≤ j.processed s ∧ j.processed s ≤ j.passed es s + 1
  accepted : (es.filterMap Event.accepted?).length = (j.queue .metadata).pushed
  backlog : (es.filterMap Event.accepted?).length ≤
    (es.filterMap Event.notified?).length + 3 * c.bufferSize + 3

/-- A stage has no more writes than its queue has room for and the one that its worker has, so
`pushed` is at most `bufferSize` and one more ahead of what it passed on. -/
theorem Run.pushed_le (hrun : Run c as j es) (s : Stage) :
    (j.queue s).pushed ≤ j.passed es s + c.bufferSize + 1 := by
  have hqueued := hrun.tally.queued s
  have hpopped := (hrun.tally.workers s).popped_le
  have hroom : (j.queue s).items.length ≤ c.bufferSize := (hrun.fits s).2
  omega

/-- While the workers are there, the counters of consecutive stages differ by what is in between
(`Reconciled`). -/
theorem Run.reconciled (hrun : Run c as j es) (hworkers : j.isShutDown = false) :
    j.Reconciled c es := by
  have htally := hrun.tally
  have hprocessed (s : Stage) : j.processed s = (j.workers.get s).processed := by
    simp [Journal.processed, hworkers]
  refine ⟨htally.queued, fun s => (hrun.fits s).2, fun s => ?_, fun s => ?_, fun s => ?_,
    htally.accepted.symm, ?_⟩
  · obtain ⟨hle, hpassed, hone, -⟩ := htally.workers s
    rw [hprocessed]
    omega
  · obtain ⟨hle, hpassed, hone, -⟩ := htally.workers s
    omega
  · obtain ⟨hle, hpassed, hone, -⟩ := htally.workers s
    rw [hprocessed]
    omega
  · -- What a stage passes on is what the next one takes in, up to the client.
    have hmetadata : (j.queue .metadata).pushed ≤ (j.queue .commit).pushed + c.bufferSize + 1 :=
      hrun.pushed_le .metadata
    have hcommit : (j.queue .commit).pushed ≤ (j.queue .checkpoint).pushed + c.bufferSize + 1 :=
      hrun.pushed_le .commit
    have hcheckpoint : (j.queue .checkpoint).pushed ≤
        (es.filterMap Event.notified?).length + c.bufferSize + 1 := hrun.pushed_le .checkpoint
    rw [← htally.accepted]
    omega

/-! ## Slots in use -/

/-- Without a shutdown, a panic and reports by write id, the slots in use are those of the writes
that are `held`. -/
theorem Run.inFlight_eq_held (hrun : Run c as j es) (hkeeps : j.pipeline.Keeps es) :
    j.table.table.inFlight = j.held.length := by
  have hchronicle := hrun.pipeline.chronicle
  rw [← places_held]
  refine Table.IsCounted.inFlight_eq_length hrun.pipeline.isCounted hchronicle.nodup fun id => ?_
  rw [List.mem_map]
  constructor
  · rintro ⟨place, hmem, rfl⟩
    obtain ⟨slot, hslot, hfits⟩ := hchronicle.placed place hmem
    exact ⟨slot, hslot, hfits.inUse⟩
  · rintro ⟨slot, hslot, huse⟩
    exact hkeeps.kept.placed id slot hslot huse

/-- At rest a submitter with a slot waits for room (`awaitsRoom`). -/
theorem IsStill.isSome_held {caller : Caller} (h : j.IsStill) (hmem : caller ∈ j.callers) :
    caller.held?.isSome = caller.awaitsRoom := by
  obtain ⟨k, hcaller⟩ := List.getElem?_of_mem hmem
  have hstep := (h.caller k).2
  rw [callerStep, hcaller] at hstep
  cases caller with
  | submitter point left answers =>
    cases point with
    | between | awaitingSlot | awaitingRoom => rfl
    | admitted id => cases hstep
  | drainer point => rfl

section

variable (h : j.IsStill) (hrun : Run c as j es) (hkeeps : j.pipeline.Keeps es)

include h hrun hkeeps

/-- At rest a stage took in what it passed on (`passed`), what its queue holds and what its worker
has. -/
theorem IsStill.pushed_eq (s : Stage) : (j.queue s).pushed =
    j.passed es s + (j.queue s).items.length + (j.workers.get s).phase.held?.toList.length := by
  have hqueued := hrun.tally.queued s
  have halive := hkeeps.alive s
  rw [workers_pipeline, Phase.isOver_awake] at halive
  obtain ⟨hpopped, hprocessed⟩ := (hrun.tally.workers s).eq_of_alive halive
  -- A worker that waits has a write unless it waits for one.
  have hheld : (j.workers.get s).phase.held?.toList.length =
      (j.workers.get s).phase.unprocessed + (j.workers.get s).phase.unpassed := by
    rcases h.phase_cases hkeeps.alive hrun.pipeline.suited s with hphase | ⟨id, hphase⟩ |
      ⟨id, t, -, hphase⟩ <;> rw [hphase] <;> rfl
  omega

/-- At rest the writes in `held` are those that wait for room and those of the backlog. -/
theorem IsStill.held_length : j.held.length + (es.filterMap Event.notified?).length =
    j.callers.countP Caller.awaitsRoom + (j.queue .metadata).pushed := by
  have hcallers : (j.callers.filterMap Caller.held?).length =
      j.callers.countP Caller.awaitsRoom := by
    rw [List.length_filterMap_eq_countP]
    exact List.countP_congr fun caller hmem => by rw [h.isSome_held hmem]
  have hmetadata : (j.queue .metadata).pushed = (j.queue .commit).pushed + _ + _ :=
    h.pushed_eq hrun hkeeps .metadata
  have hcommit : (j.queue .commit).pushed = (j.queue .checkpoint).pushed + _ + _ :=
    h.pushed_eq hrun hkeeps .commit
  have hcheckpoint : (j.queue .checkpoint).pushed =
      (es.filterMap Event.notified?).length + _ + _ := h.pushed_eq hrun hkeeps .checkpoint
  have hqueues : (Stage.all.flatMap fun s => (j.queue s).items).length =
      (j.queue .metadata).items.length + (j.queue .commit).items.length +
        (j.queue .checkpoint).items.length := by
    simp [Stage.all, Nat.add_assoc]
  have hworkers : (Stage.all.filterMap fun s => (j.workers.get s).phase.held?).length =
      (j.workers.get .metadata).phase.held?.toList.length +
        (j.workers.get .commit).phase.held?.toList.length +
          (j.workers.get .checkpoint).phase.held?.toList.length := by
    rw [List.filterMap_eq_flatMap_toList]
    simp [Stage.all, Nat.add_assoc]
  -- What each queue took over from the last is in its line, with its worker, or gone on.
  rw [held, List.length_append, List.length_append, hcallers, hqueues, hworkers]
  omega

end

/-- Until the workers are gone, consecutive counters differ by what is in between, so the backlog is
bounded, whatever else happens (`Reconciled`). When nobody can go on, the writes in flight are the
backlog and the writes that wait for room at the full first queue. This is so without panics,
without a shutdown and with completions by tokens only; the device may keep tokens or drop them. -/
theorem Run.backlog (hrun : Run c as j es) (hworkers : j.isShutDown = false) :
    j.Reconciled c es ∧
      (j.closing = .open → (∀ a ∈ as, a.isPanic = false) → (∀ id op, .report id op ∉ as) →
        j.IsStill →
          j.table.table.inFlight + (es.filterMap Event.notified?).length =
              j.callers.countP Caller.awaitsRoom + (j.queue .metadata).pushed ∧
            ∀ caller ∈ j.callers, caller.awaitsRoom = true →
              (j.queue .metadata).items.length = c.bufferSize) := by
  refine ⟨hrun.reconciled hworkers, fun hopen hpanic hreports hstill => ?_⟩
  have hkeeps := hrun.pipeline.keeps hopen hpanic hreports
  refine ⟨?_, fun caller hmem hroom => ?_⟩
  · rw [hrun.inFlight_eq_held hkeeps]
    exact hstill.held_length hrun hkeeps
  · obtain ⟨k, hcaller⟩ := List.getElem?_of_mem hmem
    have hfull : c.bufferSize ≤ (j.queue .metadata).items.length := by
      unfold Caller.awaitsRoom at hroom
      split at hroom
      · exact hstill.full_of_submitter hrun hopen hkeeps hcaller
      · exact nomatch hroom
    exact Nat.le_antisymm (hrun.fits .metadata).2 hfull

/-- One write is done. The device keeps three tokens of the next one and has dropped the fourth, a
third write waits in the queue, one more waits for room, and another request waits for a slot. -/
def congestion : List Action :=
  submission 0 0 ++ Stage.all.flatMap (passage 0 1) ++
    [.act (.worker .commit), .act (.worker .checkpoint)] ++ submission 1 1 ++
      List.replicate 11 (.act (.worker .metadata)) ++ [.drop ⟨1, .journalTxb, 1⟩] ++
        submission 2 2 ++ [.submit [3], .act (.caller 3), .act (.caller 3)] ++
          [.submit [1], .act (.caller 4)]

/-- In `congestion` three writes are in flight: two of the three that were accepted, and the one
that waits for room. -/
theorem backlog_of_congestion :
    ∃ j es, Run { bufferSize := 1, maxRequests := 5 } congestion j es ∧ j.isShutDown = false ∧
      j.Reconciled { bufferSize := 1, maxRequests := 5 } es ∧ j.IsStill ∧
        j.table.table.inFlight = 3 ∧ (es.filterMap Event.notified?).length = 1 ∧
          j.callers.countP Caller.awaitsRoom = 1 ∧ (j.queue .metadata).pushed = 3 ∧
            (j.queue .metadata).items.length = 1 := by
  have htrace : (trace? { bufferSize := 1, maxRequests := 5 } congestion).map (fun r =>
      ((r.1.closing, r.1.callers.countP Caller.awaitsRoom, (r.1.queue .metadata).pushed),
        (r.2.filterMap Event.notified?).length,
        (Stage.all.all fun s =>
          (r.1.step (.act (.worker s))).isNone && (r.1.queues.get s).owed.isEmpty),
        (List.range r.1.callers.length).all fun k => (r.1.step (.act (.caller k))).isNone)) =
      some ((.open, 1, 3), 1, true, true) := by decide +kernel
  obtain ⟨⟨j, es⟩, htrace, heq⟩ := Option.map_eq_some_iff.mp htrace
  simp only [Prod.mk.injEq] at heq
  obtain ⟨⟨hopen, hwaiting, hpushed⟩, hnotified, hstages, hcallers⟩ := heq
  have hstill : j.IsStill :=
    isStill_of_all (fun s => List.all_eq_true.mp hstages s (Stage.mem_all s)) hcallers
  have hrun := Run.of_trace? htrace
  have hworkers : j.isShutDown = false := by rw [isShutDown, hopen]; rfl
  obtain ⟨hreconciled, hrest⟩ := Run.backlog hrun hworkers
  obtain ⟨hflight, hroom⟩ := hrest hopen (by decide)
    (by simp [congestion, submission, passage, Stage.operations, Operation.all, Stage.all]) hstill
  obtain ⟨caller, hmem, hawaits⟩ := List.countP_pos_iff.mp (by rw [hwaiting]; exact Nat.one_pos)
  refine ⟨j, es, hrun, hworkers, hreconciled, hstill, ?_, hnotified, hwaiting, hpushed,
    hroom caller hmem hawaits⟩
  rw [hnotified, hwaiting, hpushed] at hflight
  exact Nat.succ.inj hflight

end Journal

end WriteAhead
