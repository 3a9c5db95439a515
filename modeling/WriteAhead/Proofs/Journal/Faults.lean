import WriteAhead.Proofs.Journal.Alert
import WriteAhead.Proofs.Journal.Quiescence
import WriteAhead.Proofs.Table.Sleepers

/-!
# No step of a journal fails

The table checks little: that a slot exists, that it is in use when an operation is put on record,
that a count has a next value, that something is in flight when a slot is released. None of these
checks can fail in a journal, whatever is requested, whatever is reported by write id, in whatever
order, and whether or not it is shut down. A write that a worker holds has a place and so a slot in
use, no operation of an occupant is put on record twice, and what is in flight are the slots in use.

## Key results

- `Pipeline.Run.ne_fault`: no worker makes a call that the table does not allow
- `Change.turn`: whatever a journal does to its table is a turn of the table
- `Run.faultless`: no check of the table fails in a journal
-/

namespace WriteAhead

/-! ## Workers -/

/-- A worker that waits holds its write at the `place?` where it held it `awake`. -/
theorem Phase.place?_awake (s : Stage) (phase : Phase) :
    phase.awake.place? s = phase.place? s := by
  cases phase <;> rfl

namespace Pipeline

variable {c : Config} {p p' : Pipeline} {a : Journal.Action} {as : List Journal.Action}
  {es es' : List Event} {s : Stage} {id : WriteId}

/-- No worker came to its end by a call that the table does not allow. -/
def Unfaulted (p : Pipeline) : Prop := ∀ s f, p.workers.get s ≠ .crashed (.fault f)

/-- A worker that goes into a phase without a `fault` leaves the pipeline `Unfaulted`. -/
theorem Unfaulted.setPhase {phase : Phase} (h : p.Unfaulted)
    (hphase : ∀ f, phase ≠ .crashed (.fault f)) : (p.setPhase s phase).Unfaulted := by
  intro t f
  rw [Pipeline.setPhase, PerStage.get_set]
  split
  · exact hphase f
  · exact h t f

/-- A write that a worker holds has its slot, and an operation of it can be put on record, so
`Move.fault` never happens. -/
theorem Chronicle.not_fault {f : Table.Fault} (h : p.Chronicle es)
    (hheld : (p.workers.get s).held? = some id) :
    ¬ (p.table.recordIssue id = .error f ∨ p.table.slot? id = none) := by
  obtain ⟨place, hplace, rfl⟩ := Phase.place?_of_held? (s := s) hheld
  have hmem := mem_places_of_phase hplace
  rintro (hfault | hnone)
  · exact h.recordIssue_ne_error hmem hfault
  · obtain ⟨slot, hslot, -⟩ := h.placed place hmem
    rw [hnone] at hslot
    exact nomatch hslot

/-- A `Move` that keeps the chronicle brings no worker to a fault. -/
theorem Move.unfaulted (hmove : p.Move a es' p') (hc : p.Chronicle es) (h : p.Unfaulted) :
    p'.Unfaulted := by
  cases hmove with
  | fault hphase hcause => exact absurd hcause (hc.not_fault hphase)
  | take | stop | record | hand | pass | notify | mark | clientPanic | devicePanic =>
    exact Unfaulted.setPhase h nofun
  | advance => exact Unfaulted.setPhase h fun f => by split <;> exact nofun
  | note | acquire | accept | turnAway | complete | drop | report | close | abort | turn => exact h

/-- No worker makes a call that the table does not allow: a run is `Unfaulted`. -/
theorem Run.ne_fault (h : Run c as p es) : p.Unfaulted := by
  induction h with
  | start => intro s f; cases s <;> exact nofun
  | move hrun hmove ih => exact hmove.unfaulted hrun.chronicle ih

/-! ## Releases -/

/-- An event that releases a slot takes one away from `inFlight`, which so was not 0. -/
theorem Entry.inFlight_of_releases {e : Event} (hentry : p.Entry a p' es')
    (hcounted : p.table.IsCounted) (hmem : e ∈ es') (hreleases : e.releases id = true) :
    p'.table.inFlight + 1 = p.table.inFlight := by
  -- An event that releases names a slot, so quiet entries have none.
  have hinert (hslot : e.slot? = none) : False := by
    rw [(Event.isInert_of_slot?_eq_none hslot).releases] at hreleases
    exact nomatch hreleases
  cases hentry with
  | idle hes | lose hes | progress hes => exact (hinert (hes e hmem)).elim
  | claim | issue =>
    rw [List.mem_singleton.mp hmem] at hreleases
    exact nomatch hreleases
  | settle hmark =>
    obtain ⟨s, rfl, hrep⟩ := Table.markCheckpointDone_ok hmark
    rw [List.mem_singleton.mp hmem] at hreleases
    simp only [Event.releases, Bool.and_eq_true] at hreleases
    obtain ⟨-, huse, hdrained⟩ := hreleases
    rw [Slot.settle_of_drained (s := s.mark) huse hdrained] at hrep
    exact hrep.inFlight_of_freed hcounted huse rfl
  | report hreport =>
    rw [List.mem_singleton.mp hmem] at hreleases
    rcases Table.recordCompletion_cases hreport with ⟨hrefused, -⟩ | ⟨s, haccepts, -, rfl, hrep⟩
    · rw [(Event.isInert_of_refused hrefused).releases] at hreleases
      exact nomatch hreleases
    · simp only [Event.releases, Table.Verdict.ofSlot, Bool.and_eq_true] at hreleases
      have huse := Slot.inUse_of_accepts haccepts
      rw [Slot.settle_of_drained (s := s.complete _) huse hreleases.2] at hrep
      exact hrep.inFlight_of_freed hcounted huse rfl

/-! ## Slots of the table -/

/-- An event about a slot is about one of the table, unless it is a report for a write without one,
which is `unknown`. -/
theorem Entry.lt_size {e : Event} (hentry : p.Entry a p' es') (hmem : e ∈ es')
    (hslot : e.slot? = some id) :
    id < p.table.slots.size ∨ ∃ op g, e = .reported id op g .unknown := by
  have hlt {t : Table} {s s' : Slot} (hrep : Table.Replaces p.table t id s s') :
      id < p.table.slots.size := (Array.getElem?_eq_some_iff.mp hrep.old).1
  cases hentry with
  | idle hes | lose hes | progress hes =>
    rw [hes e hmem] at hslot
    exact nomatch hslot
  | claim hacquire =>
    obtain rfl := List.mem_singleton.mp hmem
    obtain rfl := Option.some.inj hslot
    obtain ⟨s, -, -, -, hrep⟩ := Table.acquire_granted hacquire
    exact .inl (hlt hrep)
  | issue hop hissue =>
    obtain rfl := List.mem_singleton.mp hmem
    obtain rfl := Option.some.inj hslot
    obtain ⟨s, -, -, hrep⟩ := Table.recordIssue_ok hissue
    exact .inl (hlt hrep)
  | settle hmark =>
    obtain rfl := List.mem_singleton.mp hmem
    obtain rfl := Option.some.inj hslot
    obtain ⟨s, -, hrep⟩ := Table.markCheckpointDone_ok hmark
    exact .inl (hlt hrep)
  | @report i op g v hreport =>
    obtain rfl := List.mem_singleton.mp hmem
    obtain rfl := Option.some.inj hslot
    cases hs : p.table.slot? i with
    | some s => exact .inl (Array.getElem?_eq_some_iff.mp hs).1
    | none =>
      -- The id is compared with the number of slots before a slot is touched.
      rw [Table.recordCompletion, hs] at hreport
      obtain ⟨-, rfl⟩ := Prod.mk.inj hreport
      exact .inr ⟨op, g, rfl⟩

end Pipeline

namespace Journal

variable {c : Config} {j j' : Journal} {a : Action} {as : List Action} {es es' : List Event}

/-! ## Turns of the table -/

/-- Whatever a step does to the table of a journal is a `Turn` of the table. -/
theorem Change.turn {step : Step} (h : Change j a step) :
    step.1.table = j.table ∨ ∃ b y, j.table.Turn b y step.1.table := by
  -- A look at the table is a turn, whatever the journal does with the answer.
  have hvisit {k : Actor} {want : Table.Want} {first : Bool} {m : Table.Monitor Actor}
      {r : Option Table.Reply} (hvisit : j.table.Visit k want first m r) :
      ∃ b y, j.table.Turn b y m := ⟨.enter k want, _, .visited rfl hvisit⟩
  cases h with
  | pop => exact .inl (sameMonitors_afterPop ..).table_eq
  | push => exact .inl (sameMonitors_afterPush ..).table_eq
  | submit => exact .inl (sameMonitors_afterSubmit ..).table_eq
  | join hphase hlook =>
    rw [(sameMonitors_afterJoin ..).table_eq]
    exact .inr (hvisit hlook)
  | acquire hcaller hlook =>
    rw [(sameMonitors_afterAcquire ..).table_eq]
    exact .inr (hvisit hlook)
  | drain hcaller hlook =>
    rw [(sameMonitors_afterDrain ..).table_eq]
    exact .inr (hvisit hlook)
  | record hphase =>
    unfold Journal.record
    split
    · rename_i hissue
      exact .inr ⟨_, _, .issued hissue⟩
    · exact .inl rfl
  | mark hphase =>
    unfold Journal.mark
    split
    · rename_i hmark
      exact .inr ⟨_, _, .marked hmark⟩
    · exact .inl rfl
  | abort => exact .inr ⟨_, _, .shutDown⟩
  | complete => exact .inr ⟨_, _, .reported rfl⟩
  | report => exact .inr ⟨_, _, .reported rfl⟩
  | deliver | hand | notify | close | gone | arrive | await | drop | shutDown | shutDownAgain
  | clientPanic | devicePanic => exact .inl rfl

/-- Nobody waits at a slot that the table of a journal does not have (`WaitsWithin`). -/
theorem Run.waitsWithin (hrun : Run c as j es) : j.table.WaitsWithin := by
  induction hrun with
  | start hstart =>
    obtain ⟨-, -, rfl, -⟩ := start_eq_ok hstart
    exact nofun
  | step hrun hstep ih =>
    rcases (change_of_step hrun.attended hstep).turn with htable | ⟨b, y, hturn⟩
    · rw [htable]
      exact ih
    · exact hturn.waitsWithin ih

/-! ## Runs -/

/-- What the code of a journal takes for granted. -/
structure Faultless (c : Config) (j : Journal) : Prop where
  /-- No worker came to its end by a call that the table does not allow. -/
  workers : ∀ s f, (j.workers.get s).phase ≠ .crashed (.fault f)
  /-- What a worker puts on record is for a slot in use, whose count stays small. -/
  issue : ∀ s id op left, (j.workers.get s).phase = .issuing id (op :: left) →
    ∃ slot m g, j.table.table.slot? id = some slot ∧ slot.inUse = true ∧ slot.pendingIo + 1 ≤ 7 ∧
      j.table.recordIssue id = .ok (m, g)
  /-- There is a slot for every write that a worker holds. -/
  held : ∀ s id, (j.workers.get s).phase.held? = some id → id < c.maxRequests
  /-- The checkpoint of a write can be marked. -/
  mark : ∀ s id, (j.workers.get s).phase = .marking id →
    ∃ m released, j.table.markCheckpointDone id = .ok (m, released)
  size_eq : j.table.table.slots.size = c.maxRequests
  /-- A step touches only slots that exist. -/
  touched : ∀ a j' es', j.step a = some (j', es') → ∀ e ∈ es', ∀ id, e.slot? = some id →
    id < c.maxRequests ∨ ∃ op g, e = .reported id op g .unknown
  /-- Callers wait at slots that exist. -/
  waiting : ∀ x ∈ j.table.waiters.all, ∀ id, x.2.slotId? = some id → id < c.maxRequests
  /-- As few operations are outstanding as a write has. -/
  pendingIo_le : ∀ id slot, j.table.table.slot? id = some slot → slot.pendingIo ≤ 7
  /-- A slot that can be released is counted as in flight. -/
  inFlight_pos : ∀ id slot, j.table.table.slot? id = some slot → slot.inUse = true →
    0 < j.table.table.inFlight
  /-- A release takes one away from what is in flight. -/
  released : ∀ a j' es', j.step a = some (j', es') → ∀ e ∈ es', ∀ id, e.releases id = true →
    j'.table.table.inFlight + 1 = j.table.table.inFlight

/-- The write that a worker holds at its `place?` is among the places, whether the worker waits or
not. -/
private theorem mem_places_of_worker {s : Stage} {place : Place}
    (h : (j.workers.get s).phase.place? s = some place) : place ∈ j.pipeline.places := by
  apply Pipeline.mem_places_of_phase (s := s)
  rw [workers_pipeline, Phase.place?_awake]
  exact h

/-- A write that a worker has (`held?`) has a slot. -/
theorem Run.slot_of_held (hrun : Run c as j es) {s : Stage} {id : WriteId}
    (hheld : (j.workers.get s).phase.held? = some id) :
    ∃ slot, j.table.table.slot? id = some slot := by
  obtain ⟨place, hplace, rfl⟩ := Phase.place?_of_held? (s := s) hheld
  obtain ⟨slot, hslot, -⟩ := hrun.pipeline.chronicle.placed place (mem_places_of_worker hplace)
  exact ⟨slot, hslot⟩

/-- The operation that a worker issues next can be put on record: `recordIssue` does not fail. -/
theorem Run.recordIssue_eq_ok (hrun : Run c as j es) {s : Stage} {id : WriteId} {op : Operation}
    {left : List Operation} (hphase : (j.workers.get s).phase = .issuing id (op :: left)) :
    ∃ slot m g, j.table.table.slot? id = some slot ∧ slot.inUse = true ∧ slot.pendingIo + 1 ≤ 7 ∧
      j.table.recordIssue id = .ok (m, g) := by
  have hplace : (j.workers.get s).phase.place? s =
      some ⟨id, op :: (left ++ s.after), s.index, none⟩ := by
    rw [hphase]
    rfl
  have hc := hrun.pipeline.chronicle
  have hmem := mem_places_of_worker hplace
  obtain ⟨slot, hslot, hfits⟩ := hc.placed _ hmem
  -- The operation is not on record yet, so at most six are outstanding.
  have hpending := hc.pendingIo_lt hmem rfl hslot
  have hnext : slot.pendingIo < Table.maxPending := by
    unfold Table.maxPending
    omega
  obtain ⟨t, ht⟩ := Table.recordIssue_eq_ok hslot hfits.inUse hnext
  refine ⟨slot, { j.table with table := t }, slot.generation, hslot, hfits.inUse, hpending, ?_⟩
  rw [Table.Monitor.recordIssue, show j.table.table.recordIssue id = _ from ht]
  rfl

/-- The checkpoint of a write that a worker holds can be marked: `markCheckpointDone` does not
fail. -/
theorem Run.markCheckpointDone_eq_ok (hrun : Run c as j es) {s : Stage} {id : WriteId}
    (hheld : (j.workers.get s).phase.held? = some id) :
    ∃ m released, j.table.markCheckpointDone id = .ok (m, released) := by
  obtain ⟨slot, hslot⟩ := hrun.slot_of_held hheld
  cases hmark : j.table.markCheckpointDone id with
  | ok r => exact ⟨r.1, r.2, rfl⟩
  | error f =>
    rw [Table.Monitor.markCheckpointDone_error hmark] at hslot
    cases hslot

/-- Few operations are outstanding at any slot, whether it is in use or not: `pendingIo` is at most
7. -/
theorem Run.pendingIo_le (hrun : Run c as j es) {id : WriteId} {slot : Slot}
    (hslot : j.table.table.slot? id = some slot) : slot.pendingIo ≤ 7 := by
  have hp := hrun.pipeline
  cases huse : slot.inUse with
  | true => exact hp.chronicle.pendingIo_le hslot huse
  | false =>
    -- A free slot is blank.
    rw [hp.blank.eq_reset id slot hslot huse]
    exact Nat.zero_le 7

/-- Whatever is requested, reported or shut down, and in whatever order: no check of the table fails
in a journal (`Faultless`). -/
theorem Run.faultless (hrun : Run c as j es) : j.Faultless c := by
  have hp := hrun.pipeline
  have hsize : j.table.table.slots.size = c.maxRequests := hp.blank.size_eq
  have hentry {a : Action} {j' : Journal} {es' : List Event} (hstep : j.step a = some (j', es')) :
      j.pipeline.Entry a j'.pipeline es' :=
    (move_of_change (change_of_step hrun.attended hstep)).entry hp.suited
  constructor
  case workers =>
    intro s f hphase
    have hworker : j.pipeline.workers.get s = .crashed (.fault f) := by
      rw [workers_pipeline, hphase]
      rfl
    exact hp.ne_fault s f hworker
  case issue => exact fun s id op left hphase => hrun.recordIssue_eq_ok hphase
  case held =>
    intro s id hid
    obtain ⟨slot, hslot⟩ := hrun.slot_of_held hid
    exact hsize ▸ (Array.getElem?_eq_some_iff.mp hslot).1
  case mark => exact fun s id hphase => hrun.markCheckpointDone_eq_ok (by rw [hphase]; rfl)
  case size_eq => exact hsize
  case touched =>
    intro a j' es' hstep e hmem id hslot
    exact hsize ▸ (hentry hstep).lt_size hmem hslot
  case waiting =>
    intro x hx id hid
    exact hsize ▸ hrun.waitsWithin x hx id hid
  case pendingIo_le => exact fun id slot hslot => hrun.pendingIo_le hslot
  case inFlight_pos =>
    intro id slot hslot huse
    exact Nat.pos_of_ne_zero (hrun.inFlight_ne_zero hslot huse)
  case released =>
    intro a j' es' hstep e hmem id hreleases
    exact (hentry hstep).inFlight_of_releases hp.isCounted hmem hreleases

/-- A write id that has no slot is requested and another one reported, an operation is reported
before it is issued and then once more, and a shutdown begins while a worker still issues. -/
theorem faultless_of_stray_reports :
    ∃ j es, Run { bufferSize := 1, maxRequests := 1 }
        [.report 5 .writeData, .submit [7, 0], .act (.caller 0), .act (.caller 0),
          .report 0 .journalTxe, .report 0 .journalTxe, .act (.caller 0), .act (.caller 0),
          .act (.worker .metadata), .act (.worker .metadata), .act (.worker .metadata),
          .act (.worker .metadata), .complete ⟨0, .writeData, 1⟩, .shutDown, .act .closer] j es ∧
      j.Faultless { bufferSize := 1, maxRequests := 1 } ∧ j.closing = .closing .commit ∧
      (j.workers.get .metadata).phase =
        .issuing 0 [.journalTxb, .journalBitmap, .journalInode] ∧
      ∃ slot m g, j.table.table.slot? 0 = some slot ∧ slot.pendingIo + 1 ≤ 7 ∧
        j.table.recordIssue 0 = .ok (m, g) := by
  have hend : (trace? { bufferSize := 1, maxRequests := 1 }
      [.report 5 .writeData, .submit [7, 0], .act (.caller 0), .act (.caller 0),
        .report 0 .journalTxe, .report 0 .journalTxe, .act (.caller 0), .act (.caller 0),
        .act (.worker .metadata), .act (.worker .metadata), .act (.worker .metadata),
        .act (.worker .metadata), .complete ⟨0, .writeData, 1⟩, .shutDown, .act .closer]).map
          (fun r => (r.1.closing, (r.1.workers.get .metadata).phase)) =
      some (.closing .commit, .issuing 0 [.journalTxb, .journalBitmap, .journalInode]) := by
    decide +kernel
  obtain ⟨⟨j, es⟩, htrace, heq⟩ := Option.map_eq_some_iff.mp hend
  obtain ⟨hclosing, hphase⟩ := Prod.mk.inj heq
  have hrun := Run.of_trace? htrace
  have hfaultless := hrun.faultless
  obtain ⟨slot, m, g, hslot, -, hpending, hissue⟩ := hfaultless.issue .metadata 0 _ _ hphase
  exact ⟨j, es, hrun, hfaultless, hclosing, hphase, slot, m, g, hslot, hpending, hissue⟩

end Journal

end WriteAhead
