import WriteAhead.Proofs.Journal.Chronicle
import WriteAhead.Proofs.Journal.Projection

/-!
# When a slot is released

The checkpoint stage is the last to be done with a write, and then all operations have completed.
Its mark releases the slot if the count of outstanding operations is zero. That count goes up with
each issue and down with each report, but not below zero. So it ends at zero exactly if at no time
more operations had been reported complete than were on record. Otherwise nothing is left that could
bring it down: the occupant keeps the slot for ever.

## Key results

- `Pipeline.Chronicle.released_iff`: which marks release the slot
- `Journal.Run.checkpointed_iff`: a marked slot is free at once or never
-/

namespace WriteAhead

namespace Pipeline

variable {p p' : Pipeline} {a : Journal.Action} {es es' : List Event} {id : WriteId} {s : Slot}

/-- The mark of a write that has passed all joins releases its slot exactly if the reports of the
occupancy are `Balanced`: at no time more of its operations had been noted as complete than were on
record. -/
theorem Chronicle.released_iff {place : Place} {t : Table} {released : Bool} (h : p.Chronicle es)
    (hmem : place ∈ p.places) (hleft : place.left = []) (hpassed : place.passed = 3)
    (hmark : p.table.markCheckpointDone place.id = .ok (t, released)) :
    ∃ s, Table.Replaces p.table t place.id s s.mark.settle ∧ s.inUse = true ∧
      released = s.mark.isDrained ∧ (released = true ↔ Balanced place.id (since place.id es)) := by
  obtain ⟨s, hreleased, hrep⟩ := Table.markCheckpointDone_ok hmark
  have hfits := h.fits hmem hrep.old
  have hoccupancy := h.occupied _ s hrep.old hfits.inUse
  rw [hfits.inUse, Bool.true_and] at hreleased
  refine ⟨s, hrep, hfits.inUse, hreleased, ?_⟩
  have hfull : s.completed = .full := by
    rw [OpSet.eq_full_iff]
    exact fun op => hfits.passed op (hpassed ▸ Nat.lt_succ_of_le op.stage.index_le)
  have hissues : (issues place.id (since place.id es)).length = 7 := by
    have := hfits.issues_left
    rw [hleft, List.append_nil] at this
    rw [this]
    rfl
  -- As many are on record as are noted, so what is outstanding counts the reports before their
  -- time.
  have hpending := hoccupancy.pending_eq
  rw [hfull, OpSet.size_full, hissues] at hpending
  rw [hoccupancy.balanced_iff, hreleased]
  simp only [Slot.isDrained, Slot.mark, Bool.true_and, beq_iff_eq]
  omega

/-- Nothing changes the slot of an occupant with `checkpointDone` that is still there: what is left
outstanding was noted already, so every report is a duplicate. -/
theorem Entry.slot?_of_marked (hentry : p.Entry a p' es') (h : p.Chronicle es)
    (hs : p.table.slot? id = some s) (huse : s.inUse = true) (hdone : s.checkpointDone = true) :
    p'.table.slot? id = some s ∧ ∀ g, .acquired id g ∉ es' := by
  -- A marked occupant has no place any more, so no worker comes across its slot.
  have hplace : ∀ place ∈ p.places, id ≠ place.id := by
    rintro place hmem rfl
    have := (h.fits hmem hs).unmarked
    rw [hdone] at this
    exact nomatch this
  cases hentry with
  | idle hes hslots | lose hes hslots | progress hes hslots =>
    refine ⟨by rw [slot?_of_slots_eq hslots]; exact hs, fun g hg => ?_⟩
    exact nomatch hes _ hg
  | @claim id' g hacquire =>
    obtain ⟨s', hfree, -, -, hrep⟩ := Table.acquire_granted hacquire
    have hne : id ≠ id' := by
      rintro rfl
      have := hrep.old
      rw [hs, Option.some.injEq] at this
      rw [← this, huse] at hfree
      exact nomatch hfree
    exact ⟨by rw [hrep.slot?_of_ne hne]; exact hs, by simp [hne]⟩
  | issue hop hissue hplaces =>
    obtain ⟨s', -, -, hrep⟩ := Table.recordIssue_ok hissue
    have hne := hplace _ (hplaces.mem_iff.mpr List.mem_cons_self)
    exact ⟨by rw [hrep.slot?_of_ne hne]; exact hs, by simp⟩
  | settle hmark hplaces =>
    obtain ⟨s', -, hrep⟩ := Table.markCheckpointDone_ok hmark
    have hne := hplace _ (hplaces.mem_iff.mpr List.mem_cons_self)
    exact ⟨by rw [hrep.slot?_of_ne hne]; exact hs, by simp⟩
  | @report id' op g v hreport =>
    refine ⟨?_, by simp⟩
    rcases Table.recordCompletion_cases hreport with ⟨-, hslots, -⟩ | ⟨s', -, hnew, -, hrep⟩
    · rw [slot?_of_slots_eq hslots]
      exact hs
    · -- It has completed everything, so a report that is noted is for another slot.
      have hne : id ≠ id' := by
        rintro rfl
        obtain rfl : s = s' := by
          have := hrep.old
          rwa [hs, Option.some.injEq] at this
        rw [h.unmarked hs huse hnew] at hdone
        exact nomatch hdone
      rw [hrep.slot?_of_ne hne]
      exact hs

/-- A `Move` that marks a checkpoint is one of the worker that is about to. -/
theorem Move.checkpointed {released : Bool} (hmove : p.Move a es' p')
    (h : .checkpointed id released ∈ es') :
    ∃ s, p.workers.get s = .marking id ∧
      p.table.markCheckpointDone id = .ok (p'.table, released) := by
  cases hmove with
  | note hes | turnAway hes | stop hes | advance hes | turn hes => exact absurd (hes _ h) nofun
  | mark hphase hmark =>
    obtain ⟨rfl, rfl⟩ := Event.checkpointed.inj (List.mem_singleton.mp h)
    exact ⟨_, hphase, hmark⟩
  | _ => simp at h

end Pipeline

namespace Journal

variable {c : Config} {as as' : List Action} {j j' j'' : Journal} {es es' es'' : List Event}
  {a : Action} {id : WriteId} {s : Slot}

/-- An occupant with `checkpointDone` that is still there stays for ever. -/
theorem Run.slot?_of_marked (hrun : Run c as j es) (hs : j.table.table.slot? id = some s)
    (huse : s.inUse = true) (hdone : s.checkpointDone = true)
    (hmore : j.run? as' = some (j', es')) :
    j'.table.table.slot? id = some s ∧ ∀ g, .acquired id g ∉ es' := by
  induction as' generalizing as j es es' with
  | nil =>
    obtain ⟨rfl, rfl⟩ := Prod.mk.inj (Option.some.inj hmore)
    exact ⟨hs, fun g hg => nomatch hg⟩
  | cons a as' ih =>
    obtain ⟨j₁, es₁, es₂, hstep, htail, rfl⟩ := run?_cons_some hmore
    have hentry := (hrun.move hstep).entry hrun.pipeline.suited
    obtain ⟨hs₁, hnone₁⟩ := hentry.slot?_of_marked hrun.pipeline.chronicle hs huse hdone
    obtain ⟨hs₂, hnone₂⟩ := ih (hrun.step hstep) hs₁ htail
    refine ⟨hs₂, fun g hg => ?_⟩
    rcases List.mem_append.mp hg with hg | hg
    · exact hnone₁ g hg
    · exact hnone₂ g hg

/-- A slot in use counts in `inFlight`. -/
theorem Run.inFlight_ne_zero (hrun : Run c as j es) (hs : j.table.table.slot? id = some s)
    (huse : s.inUse = true) : j.table.table.inFlight ≠ 0 := by
  intro hzero
  rw [(Table.IsCounted.inFlight_eq_zero_iff hrun.pipeline.isCounted).mp hzero id s hs] at huse
  exact nomatch huse

/-- When the checkpoint stage is done with an occupant, its slot becomes free and is no longer in
flight exactly if at no time of the occupancy more operations had been reported complete than were
on record (`Balanced`). Otherwise the slot is in use, counted as in flight and claimed by nobody
ever after. -/
theorem Run.checkpointed_iff {released : Bool} (hrun : Run c as j es)
    (hstep : j.step a = some (j', es')) (hmark : .checkpointed id released ∈ es') :
    (released = true ↔ Balanced id (since id es)) ∧
    (released = true → ∃ s, j'.table.table.slot? id = some s ∧ s.inUse = false ∧
      j'.table.table.inFlight + 1 = j.table.table.inFlight) ∧
    (released = false → ∃ s, s.inUse = true ∧ ∀ as' j'' es'', j'.run? as' = some (j'', es'') →
      j''.table.table.slot? id = some s ∧ j''.table.table.inFlight ≠ 0 ∧
        ∀ g, .acquired id g ∉ es'') := by
  have hmove := hrun.move hstep
  obtain ⟨st, hphase, hmarked⟩ := hmove.checkpointed hmark
  have hsuits := hrun.pipeline.suited st
  rw [hphase] at hsuits
  obtain ⟨hafter, hindex⟩ := Stage.after_of_last hsuits
  have hmem := Pipeline.mem_places_of_phase (p := j.pipeline) (s := st) (by rw [hphase]; rfl)
  obtain ⟨s, hrep, huse, hreleased, hiff⟩ := hrun.pipeline.chronicle.released_iff hmem hafter
    (congrArg (· + 1) hindex) hmarked
  refine ⟨hiff, fun htrue => ?_, fun hfalse => ?_⟩
  · -- The mark frees the slot.
    rw [hreleased] at htrue
    rw [Slot.settle_of_drained (s := s.mark) huse htrue] at hrep
    refine ⟨s.mark.reset, hrep.slot?_self, rfl, ?_⟩
    have hflight : j'.table.table.inFlight = j.table.table.inFlight - 1 := by
      have := hrep.inFlight_eq
      rw [huse] at this
      exact this
    have hpos := hrun.inFlight_ne_zero hrep.old huse
    omega
  · -- The mark leaves the slot in use, and nothing can change it any more.
    rw [hreleased] at hfalse
    rw [Slot.settle_of_not_drained hfalse] at hrep
    refine ⟨s.mark, huse, fun as' j'' es'' hmore => ?_⟩
    have hrun' := hrun.step hstep
    obtain ⟨hs, hnone⟩ := hrun'.slot?_of_marked hrep.slot?_self huse rfl hmore
    exact ⟨hs, (hrun'.append hmore).inFlight_ne_zero hs huse, hnone⟩

/-- A write of which every operation was reported in its time leaves its slot free. -/
theorem checkpointed_iff_of_undisturbed :
    ∃ j es j' es', Run { bufferSize := 1, maxRequests := 1 }
        (submission 0 0 ++ (Stage.all.flatMap (passage 0 1)).dropLast) j es ∧
      j.step (.act (.worker .checkpoint)) = some (j', es') ∧ es' = [.checkpointed 0 true] ∧
      Balanced 0 (since 0 es) ∧ ∃ s, j'.table.table.slot? 0 = some s ∧ s.inUse = false ∧
        j'.table.table.inFlight + 1 = j.table.table.inFlight := by
  have hnext : ((trace? { bufferSize := 1, maxRequests := 1 }
      (submission 0 0 ++ (Stage.all.flatMap (passage 0 1)).dropLast)).bind fun r =>
        (r.1.step (.act (.worker .checkpoint))).map (·.2)) = some [.checkpointed 0 true] := by
    decide +kernel
  obtain ⟨j, es, j', hrun, hstep⟩ := Run.of_trace?_step hnext
  obtain ⟨hiff, hfree, -⟩ := Run.checkpointed_iff hrun hstep
    (show Event.checkpointed 0 true ∈ [Event.checkpointed 0 true] from List.mem_cons_self)
  exact ⟨j, es, j', _, hrun, hstep, rfl, hiff.mp rfl, hfree rfl⟩

/-- The operation of the second stage is reported by write id while the first stage has its four
operations outstanding. Every token is completed in the end, and the slot stays in use. -/
theorem leak_of_early_report :
    ∃ as j es, Run { bufferSize := 1, maxRequests := 1 } as j es ∧ j.closing = .open ∧
      as.all (!·.isMishap) = true ∧
      .reported 0 .journalTxe none (.accepted true false false) ∈ es ∧
      .checkpointed 0 false ∈ es ∧ j.pipeline.tokens = [] ∧
      j.table.table.inFlight = 1 ∧ ∃ s, j.table.table.slot? 0 = some s ∧ s.inUse = true := by
  have hrun : (trace? { bufferSize := 1, maxRequests := 1 }
      (submission 0 0 ++ List.replicate 10 (.act (.worker .metadata)) ++ [.report 0 .journalTxe] ++
        Stage.metadata.operations.map (fun op => .complete ⟨0, op, 1⟩) ++
        List.replicate 3 (.act (.worker .metadata)) ++ passage 0 1 .commit ++
        passage 0 1 .checkpoint)).map (fun r => ((r.1.closing, r.1.pipeline.tokens),
          (r.1.table.table.inFlight, r.1.table.table.slot? 0),
          r.2.contains (.checkpointed 0 false) &&
            r.2.contains (.reported 0 .journalTxe none (.accepted true false false)))) =
      some ((.open, []), (1, some ⟨true, 1, .full, 1, true⟩), true) := by decide +kernel
  obtain ⟨⟨j, es⟩, htrace, heq⟩ := Option.map_eq_some_iff.mp hrun
  simp only [Prod.mk.injEq, Bool.and_eq_true, List.contains_iff_mem] at heq
  obtain ⟨⟨hopen, htokens⟩, ⟨hflight, hslot⟩, hmarked, hreported⟩ := heq
  exact ⟨_, j, es, .of_trace? htrace, hopen, by decide, hreported, hmarked, htokens, hflight,
    _, hslot, rfl⟩

end Journal

end WriteAhead
