import WriteAhead.Proofs.Journal.Chronicle
import WriteAhead.Proofs.Journal.Projection

/-!
# A write is in one place at a time

From the claim on its slot until the checkpoint stage is done with it, a write is with a request,
in a queue or with a worker. Nothing in the queues keeps a write from being there twice. It is the
slot that does: a write gets in only with a claim, a claim is granted only on a free slot, and the
slot is not free while the write is in any of these places. So the generation that the claim
returned is that of the slot for all this time.

## Key results

- `Pipeline.Entry.generation_eq`: claims, and nothing else, move generations
- `Journal.Run.custody`: a write in a place has been in one since the claim on its slot
- `Journal.Run.single_place`: no write is in two places, and its slot is in use for it
-/

namespace WriteAhead

/-- A release by `settle` leaves the generation of the slot. -/
theorem Slot.settle_generation (s : Slot) : s.settle.generation = s.generation := by
  unfold settle
  split <;> rfl

/-- A slot that is replaced (`Table.Replaces`) by one of the same generation moves no generation. -/
theorem Table.Replaces.generation_eq {t t' : Table} {id i : WriteId} {s s' u : Slot}
    (h : Replaces t t' id s s') (hgen : s'.generation = s.generation) (hu : t.slot? i = some u) :
    ∃ u', t'.slot? i = some u' ∧ u'.generation = u.generation := by
  by_cases hi : i = id
  · subst hi
    rw [h.old, Option.some.injEq] at hu
    exact ⟨s', h.slot?_self, hu ▸ hgen⟩
  · exact ⟨u, by rw [h.slot?_of_ne hi, hu], rfl⟩

/-- Events without a `slot?` are no claims. -/
theorem countP_acquires_eq_zero {es : List Event} (id : WriteId)
    (hes : ∀ e ∈ es, e.slot? = none) : es.countP (Event.acquires id) = 0 := by
  refine List.countP_eq_zero.mpr fun e he => ?_
  have hinert : e.IsInert id := Event.isInert_of_slot?_eq_none (hes e he)
  simp [hinert.acquires]

namespace Pipeline

variable {p p' : Pipeline} {a : Journal.Action} {es' : List Event} {id : WriteId} {s : Slot}

/-! ## Claims and generations -/

/-- The slot of a write goes up one generation with each claim on it (`acquires`), and with nothing
else. -/
theorem Entry.generation_eq (hentry : p.Entry a p' es') (hs : p.table.slot? id = some s) :
    ∃ s', p'.table.slot? id = some s' ∧
      s'.generation = s.generation + UInt64.ofNat (es'.countP (Event.acquires id)) := by
  -- Only a claim brings a new occupant. Whatever else replaces a slot keeps the generation.
  cases hentry with
  | idle hes hslots | lose hes hslots | progress hes hslots =>
    rw [slot?_of_slots_eq hslots, countP_acquires_eq_zero id hes]
    exact ⟨s, hs, (UInt64.add_zero _).symm⟩
  | @claim i g hacquire =>
    obtain ⟨s₀, -, -, rfl, hrep⟩ := Table.acquire_granted hacquire
    by_cases hi : id = i
    · subst hi
      rw [hrep.old, Option.some.injEq] at hs
      subst hs
      exact ⟨s₀.occupy, hrep.slot?_self, by simp [Slot.occupy, Event.acquires]⟩
    · exact ⟨s, by rw [hrep.slot?_of_ne hi, hs], by simp [Event.acquires, Ne.symm hi]⟩
  | issue hop hissue =>
    obtain ⟨s₀, -, -, hrep⟩ := Table.recordIssue_ok hissue
    simpa [Event.acquires] using hrep.generation_eq rfl hs
  | settle hmark =>
    obtain ⟨s₀, -, hrep⟩ := Table.markCheckpointDone_ok hmark
    simpa [Event.acquires] using hrep.generation_eq (Slot.settle_generation _) hs
  | report hreport =>
    rcases Table.recordCompletion_cases hreport with ⟨-, hslots, -⟩ | ⟨s₀, -, -, -, hrep⟩
    · rw [slot?_of_slots_eq hslots]
      exact ⟨s, hs, by simp [Event.acquires]⟩
    · simpa [Event.acquires] using hrep.generation_eq (Slot.settle_generation _) hs

/-- A slot in use is not claimed: `acquire` grants free slots only. -/
theorem Entry.not_acquires (hentry : p.Entry a p' es') (hs : p.table.slot? id = some s)
    (huse : s.inUse = true) : ∀ e ∈ es', e.acquires id = false := by
  cases hentry with
  | idle hes | lose hes | progress hes =>
    exact fun e he => (Event.isInert_of_slot?_eq_none (hes e he)).acquires
  | @claim i g hacquire =>
    have hi : i ≠ id := by
      rintro rfl
      exact Table.acquire_ne_granted hs huse hacquire
    simp [Event.acquires, hi]
  | issue | settle | report => simp [Event.acquires]

/-- A write in `places` after an entry was there before it, or the entry is the claim on its
slot. -/
theorem Entry.mem_places (hentry : p.Entry a p' es') (hmem : id ∈ p'.places.map Place.id) :
    id ∈ p.places.map Place.id ∨
      ∃ g, es' = [.acquired id g] ∧ p.table.acquire id = .granted p'.table g := by
  have hperm {places : List Place} (h : p'.places.Perm places) : id ∈ places.map Place.id :=
    (h.map Place.id).mem_iff.mp hmem
  cases hentry with
  | idle hes hslots hplaces => exact .inl (hperm hplaces)
  | report hreport hplaces => exact .inl (hperm hplaces)
  | lose hes hslots hplaces =>
    refine .inl ((hplaces.map Place.id).mem_iff.mpr ?_)
    rw [List.map_append]
    exact List.mem_append_right _ hmem
  | @claim i g hacquire hplaces =>
    rcases List.mem_cons.mp (hperm hplaces) with rfl | hold
    · exact .inr ⟨g, rfl, hacquire⟩
    · exact .inl hold
  | issue hop hissue hplaces hplaces' =>
    -- The place is another one, for the same write.
    have hnew := hperm hplaces'
    exact .inl ((hplaces.map Place.id).mem_iff.mpr hnew)
  | progress hes hslots hplaces hplaces' =>
    have hnew := hperm hplaces'
    exact .inl ((hplaces.map Place.id).mem_iff.mpr hnew)
  | settle hmark hplaces =>
    exact .inl ((hplaces.map Place.id).mem_iff.mpr (List.mem_cons_of_mem _ hmem))

end Pipeline

namespace Journal

variable {c : Config} {as : List Action} {j j' : Journal} {es es' : List Event} {a : Action}
  {id : WriteId} {g : Generation} {s : Slot}

/-! ## Writes in their places -/

/-- The writes that have a slot and are with a request, in a queue or with a worker, each as often
as it is there. The last worker holds a write until its mark. -/
def held (j : Journal) : List WriteId :=
  j.callers.filterMap Caller.held? ++ Stage.all.flatMap (fun s => (j.queue s).items) ++
    Stage.all.filterMap fun s => (j.workers.get s).phase.held?

/-- The places of the pipeline are those of the writes that are `held`. -/
theorem places_held (j : Journal) : j.pipeline.places.map Place.id = j.held := by
  have hadmitted : (j.callers.filterMap Caller.held?).map (Place.id ∘ .admitted) =
      j.callers.filterMap Caller.held? := List.map_id _
  have hline (s : Stage) : ((j.pipeline.lines.get s).map (.queued s)).map Place.id =
      (j.queue s).items := by
    rw [lines_pipeline, List.map_map]
    exact List.map_id _
  have hworker (s : Stage) : (((j.pipeline.workers.get s).place? s).toList).map Place.id =
      (j.workers.get s).phase.held?.toList := by
    rw [workers_pipeline]
    cases (j.workers.get s).phase <;> rfl
  have hfilter : (Stage.all.filterMap fun s => (j.workers.get s).phase.held?) =
      Stage.all.flatMap fun s => (j.workers.get s).phase.held?.toList :=
    List.filterMap_eq_flatMap_toList ..
  -- The three kinds of places one by one.
  rw [Pipeline.places, held, hfilter, List.map_append, List.map_append, List.map_map,
    List.map_flatMap, List.map_flatMap]
  simp only [hline, hworker]
  exact congrArg (· ++ _ ++ _) hadmitted

/-- The write `id` was in no place, its slot was claimed with generation `g`, and in every step
since then the write was in a place and its slot was not claimed. -/
inductive Custody (c : Config) (id : WriteId) (g : Generation) :
    List Action → Journal → List Event → Prop where
  /-- The slot is claimed. -/
  | claim {as : List Action} {j j' : Journal} {es es' : List Event} {a : Action}
      (hrun : Run c as j es) (hnew : id ∉ j.held) (hstep : j.step a = some (j', es'))
      (hclaim : .acquired id g ∈ es') (hheld : id ∈ j'.held) :
      Custody c id g (as ++ [a]) j' (es ++ es')
  /-- The write keeps its place or goes to another. -/
  | keep {as : List Action} {j j' : Journal} {es es' : List Event} {a : Action}
      (hbefore : Custody c id g as j es) (hstep : j.step a = some (j', es'))
      (hsame : ∀ g', .acquired id g' ∉ es') (hheld : id ∈ j'.held) :
      Custody c id g (as ++ [a]) j' (es ++ es')

/-- A write in a place has been in one since its slot was claimed, with the generation that the slot
has: it is in `Custody`. -/
theorem Run.custody (hrun : Run c as j es) (hheld : id ∈ j.held)
    (hs : j.table.table.slot? id = some s) : Custody c id s.generation as j es := by
  -- A step gives a write a place only with a claim. While it has one, its slot is in use, and a
  -- slot in use is not claimed.
  induction hrun generalizing s with
  | start hstart =>
    obtain ⟨-, -, rfl, -⟩ := start_eq_ok hstart
    exact absurd hheld List.not_mem_nil
  | @step as j j' es es' a hrun hstep ih =>
    have hentry := (hrun.move hstep).entry hrun.pipeline.suited
    have hmem := hheld
    rw [← places_held] at hmem
    by_cases hbefore : id ∈ j.held
    · -- The slot was in use before the step, so the step is no claim on it.
      rw [← places_held, List.mem_map] at hbefore
      obtain ⟨place, hplace, rfl⟩ := hbefore
      obtain ⟨s₀, hs₀, hfits⟩ := hrun.pipeline.chronicle.placed place hplace
      have hclaims := hentry.not_acquires hs₀ hfits.inUse
      obtain ⟨s', hs', hgen⟩ := hentry.generation_eq hs₀
      rw [List.countP_eq_zero.mpr fun e he => by simp [hclaims e he]] at hgen
      have hsame : s.generation = s₀.generation := by
        have : s' = s := Option.some.inj (hs'.symm.trans hs)
        rw [← this, hgen]
        exact UInt64.add_zero _
      rw [hsame]
      refine .keep (ih ?_ hs₀) hstep (fun g' hg' => ?_) hheld
      · rw [← places_held]
        exact List.mem_map_of_mem hplace
      · simpa [Event.acquires] using hclaims _ hg'
    · -- The write is new, so the step is the claim on its slot.
      rcases hentry.mem_places hmem with hold | ⟨g, rfl, hacquire⟩
      · rw [places_held] at hold
        exact absurd hold hbefore
      · obtain ⟨s₀, -, -, rfl, hrep⟩ := Table.acquire_granted hacquire
        have : s₀.occupy = s := Option.some.inj (hrep.slot?_self.symm.trans hs)
        exact .claim hrun hbefore hstep (by simp [← this, Slot.occupy]) hheld

/-- At every moment of every run, no write is in `held` twice, at two places or at one. The slot of
a write in a place is in use and not marked, and its generation is the one that the claim of this
write returned (`Custody`). -/
theorem Run.single_place (hrun : Run c as j es) :
    j.held.Nodup ∧ ∀ id ∈ j.held, ∃ slot, j.table.table.slot? id = some slot ∧
      slot.inUse = true ∧ slot.checkpointDone = false ∧ Custody c id slot.generation as j es := by
  have hchronicle := hrun.pipeline.chronicle
  constructor
  · rw [← places_held]
    exact hchronicle.nodup
  · intro id hheld
    have hmem := hheld
    rw [← places_held, List.mem_map] at hmem
    obtain ⟨place, hplace, rfl⟩ := hmem
    obtain ⟨slot, hslot, hfits⟩ := hchronicle.placed place hplace
    exact ⟨slot, hslot, hfits.inUse, hfits.unmarked, hrun.custody hheld hslot⟩

/-- The second write of a slot is with the first worker, another one waits in the queue for it, and
a third has just got its slot. -/
theorem single_place_of_three :
    ∃ as j es, Run { bufferSize := 1, maxRequests := 3 } as j es ∧ j.held = [2, 1, 0] ∧
      j.held.Nodup ∧ ∃ slot, j.table.table.slot? 0 = some slot ∧ slot.inUse = true ∧
        slot.checkpointDone = false ∧ slot.generation = 2 ∧
          Custody { bufferSize := 1, maxRequests := 3 } 0 slot.generation as j es := by
  have hrun : (trace? { bufferSize := 1, maxRequests := 3 }
      (submission 0 0 ++ Stage.all.flatMap (passage 0 1) ++ submission 1 0 ++
        [.act (.worker .metadata), .act (.worker .metadata)] ++ submission 2 1 ++
          [.submit [2], .act (.caller 3)])).map
        (fun r => (r.1.held, (r.1.table.table.slot? 0).map (·.generation))) =
      some ([2, 1, 0], some 2) := by decide +kernel
  obtain ⟨⟨j, es⟩, htrace, heq⟩ := Option.map_eq_some_iff.mp hrun
  obtain ⟨hheld, hgeneration⟩ := Prod.mk.inj heq
  have hrun := Run.of_trace? htrace
  obtain ⟨hnodup, hslots⟩ := Run.single_place hrun
  obtain ⟨slot, hslot, huse, hunmarked, hcustody⟩ := hslots 0 (by rw [hheld]; decide)
  rw [hslot, Option.map_some, Option.some.injEq] at hgeneration
  exact ⟨_, j, es, hrun, hheld, hnodup, slot, hslot, huse, hunmarked, hgeneration, hcustody⟩

end Journal

end WriteAhead
