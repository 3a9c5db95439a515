import WriteAhead.Proofs.Journal.Custody
import WriteAhead.Proofs.Journal.Delivery
import WriteAhead.Proofs.Journal.Ordering

/-!
# One request of a write at a time

The requests of a write are taken one after the other: the next one claims the slot only after the
checkpoint stage is done with the last. So as many requests are accepted as were marked, or one
more, and that one is the occupant of the slot. Before the mark the client is told.

## Key results

- `Pipeline.Turns`: how the requests of a write, its marks and its notifications count up
- `Pipeline.Run.turns`: this holds along every run, a shutdown included
- `Pipeline.Run.full_of_told`: the client is told of a write once all of it is completed
-/

namespace WriteAhead

/-- Whether the checkpoint stage is done with a request of a write. -/
def Event.marks (id : WriteId) : Event → Bool
  | .checkpointed i _ => i == id
  | _ => false

/-- An event whose `slot?` is another one does not mark the write. -/
theorem Event.marks_of_slot?_ne {e : Event} {id : WriteId} (h : e.slot? ≠ some id) :
    e.marks id = false := by
  cases e with
  | checkpointed i released =>
    have hi : i ≠ id := fun hi => h (hi ▸ rfl)
    simp [marks, hi]
  | _ => rfl

/-- Events about other slots (`slot?`) mark nothing of a write. -/
theorem countP_marks_eq_zero {es : List Event} {id : WriteId} (h : ∀ e ∈ es, e.slot? ≠ some id) :
    es.countP (Event.marks id) = 0 :=
  List.countP_eq_zero.mpr fun e he => by simp [Event.marks_of_slot?_ne (h e he)]

/-- How many occupants the slot of a write has. -/
def Table.occupants (t : Table) (id : WriteId) : Nat := ((t.slot? id).any (·.inUse)).toNat

theorem Table.occupants_of_slot {t : Table} {id : WriteId} {s : Slot} (h : t.slot? id = some s) :
    t.occupants id = s.inUse.toNat := by
  rw [occupants, h]
  rfl

namespace Pipeline

variable {p p' : Pipeline} {a : Journal.Action} {as : List Journal.Action} {c : Config}
  {es es' : List Event} {id : WriteId} {s : Slot} {st : Stage}

/-- How often a write has a place. -/
def presences (p : Pipeline) (id : WriteId) : Nat := (p.places.map Place.id).count id

/-- Requests of a write that were marked, accepted and told to the client. -/
structure Turns (p : Pipeline) (es : List Event) (id : WriteId) : Prop where
  /-- Whatever was marked or has a place was accepted, or it is about to be. -/
  lower : es.countP (Event.marks id) + p.presences id ≤
    (es.filterMap Event.accepted?).count id + p.admitted.count id
  /-- Whatever was accepted or is about to be was marked, but for the occupant of the slot. -/
  upper : (es.filterMap Event.accepted?).count id + p.admitted.count id ≤
    es.countP (Event.marks id) + p.table.occupants id
  /-- An occupant with an operation on record was accepted. -/
  begun : ∀ s, p.table.slot? id = some s → s.inUse = true → s.checkpointDone = false →
    issues id (since id es) ≠ [] →
      es.countP (Event.marks id) < (es.filterMap Event.accepted?).count id
  told : es.countP (Event.marks id) ≤ (es.filterMap Event.notified?).count id
  /-- The client was told of a write that is about to be marked. -/
  marking : ∀ st, p.workers.get st = .marking id →
    es.countP (Event.marks id) < (es.filterMap Event.notified?).count id

/-! ## Places past the first queue -/

/-- A write in a queue or with a worker is with no submitter, and is counted once in `presences`. -/
theorem Chronicle.not_mem_admitted {place : Place} (h : p.Chronicle es)
    (hmem : place ∈ Stage.all.flatMap (fun s => (p.lines.get s).map (Place.queued s)) ++
      Stage.all.flatMap fun s => ((p.workers.get s).place? s).toList) :
    place.id ∉ p.admitted ∧ p.presences place.id = 1 := by
  have hnodup := h.nodup
  have hplaces : place.id ∈ p.places.map Place.id := by
    rw [places, List.append_assoc]
    exact List.mem_map_of_mem (List.mem_append_right _ hmem)
  refine ⟨fun hadmitted => ?_, List.count_eq_one_of_mem hnodup hplaces⟩
  rw [places, List.append_assoc, List.map_append, List.nodup_append] at hnodup
  exact hnodup.2.2 _ (List.mem_map.mpr ⟨.admitted place.id, List.mem_map_of_mem hadmitted, rfl⟩) _
    (List.mem_map_of_mem hmem) rfl

/-- A write with a worker is not among the `admitted`, and has this place only. -/
theorem Chronicle.not_mem_admitted_of_worker {place : Place} (h : p.Chronicle es)
    (hplace : (p.workers.get st).place? st = some place) :
    place.id ∉ p.admitted ∧ p.presences place.id = 1 := by
  refine h.not_mem_admitted (List.mem_append_right _ ?_)
  exact List.mem_flatMap.mpr ⟨st, Stage.mem_all st, Option.mem_toList.mpr hplace⟩

/-- A write in a queue is not among the `admitted`, and has this place only. -/
theorem Chronicle.not_mem_admitted_of_line (h : p.Chronicle es) (hmem : id ∈ p.lines.get st) :
    id ∉ p.admitted ∧ p.presences id = 1 := by
  have hplace : Place.queued st id ∈
      Stage.all.flatMap fun s => (p.lines.get s).map (Place.queued s) :=
    List.mem_flatMap.mpr ⟨st, Stage.mem_all st, List.mem_map_of_mem hmem⟩
  exact h.not_mem_admitted (List.mem_append_left _ hplace)

/-- A write in a queue has its place there, `Place.queued`. -/
theorem mem_places_of_line (hmem : id ∈ p.lines.get st) : .queued st id ∈ p.places :=
  (p.places_setLine st []).mem_iff.mp (List.mem_append_left _ (List.mem_map_of_mem hmem))

/-- No write is in a queue twice, since its `places` are distinct. -/
theorem Chronicle.nodup_line (h : p.Chronicle es) (st : Stage) : (p.lines.get st).Nodup := by
  have hnodup := ((p.places_setLine st []).map Place.id).nodup_iff.mpr h.nodup
  rw [List.map_append, List.map_map] at hnodup
  exact (List.nodup_append.mp hnodup).1.of_map _

/-- A write in a queue or with a worker was accepted (`accepted?`) once more often than it was
marked. -/
theorem Turns.accepted_eq (h : p.Turns es id) (hpresent : id ∉ p.admitted ∧ p.presences id = 1) :
    (es.filterMap Event.accepted?).count id = es.countP (Event.marks id) + 1 := by
  have hlower := h.lower
  have hupper := h.upper
  have hle : p.table.occupants id ≤ 1 := Bool.toNat_le _
  rw [hpresent.2, List.count_eq_zero.mpr hpresent.1] at *
  omega

/-! ## Moves -/

/-- Lists of the same `places` have the same `presences`. -/
theorem presences_eq {places : List Place} (h : p.places.Perm places) (id : WriteId) :
    p.presences id = (places.map Place.id).count id := (h.map Place.id).count_eq id

/-- A claim gives a write a place, and a mark takes it away, so `presences` goes up by the claims
less the marks at most. It goes up by less where writes are lost. -/
theorem Entry.presences (hentry : p.Entry a p' es') (id : WriteId) :
    es'.countP (Event.marks id) + p'.presences id ≤
      p.presences id + es'.countP (Event.acquires id) := by
  have hquiet (hes : ∀ e ∈ es', e.slot? = none) : es'.countP (Event.marks id) = 0 :=
    countP_marks_eq_zero fun e he => by rw [hes e he]; exact nofun
  cases hentry with
  | idle hes hslots hplaces =>
    rw [hquiet hes, countP_acquires_eq_zero id hes, presences_eq hplaces, Pipeline.presences]
    omega
  | lose hes hslots hplaces =>
    rw [hquiet hes, presences_eq hplaces, List.map_append, List.count_append, Pipeline.presences]
    omega
  -- A claim adds one presence and one event that acquires.
  | claim hacquire hplaces =>
    rw [presences_eq hplaces, List.map_cons, List.count_cons, Pipeline.presences]
    simp [Event.marks, Event.acquires, Place.admitted, List.countP_cons]
  | issue hop hissue hplaces hplaces' =>
    rw [presences_eq hplaces, presences_eq hplaces']
    simp [Event.marks]
  | progress hes hslots hplaces hplaces' =>
    rw [hquiet hes, presences_eq hplaces, presences_eq hplaces']
    simp
  -- A mark takes the presence away again.
  | settle hmark hplaces =>
    rw [presences_eq hplaces, List.map_cons, List.count_cons, Pipeline.presences]
    simp [Event.marks, List.countP_cons, Nat.add_comm]
  | report hreport hplaces =>
    rw [presences_eq hplaces, Pipeline.presences]
    simp [Event.marks]

/-- A claim gives a slot its occupant (`occupants`), and only a mark takes it away: an occupant that
is marked has completed everything, so no report is accepted that could release the slot. -/
theorem Entry.occupants (hentry : p.Entry a p' es') (h : p.Chronicle es) (id : WriteId) :
    p.table.occupants id + es'.countP (Event.acquires id) ≤
      es'.countP (Event.marks id) + p'.table.occupants id := by
  have hsame (hslot : p'.table.slot? id = p.table.slot? id) :
      p'.table.occupants id = p.table.occupants id := by
    rw [Table.occupants, hslot, Table.occupants]
  cases hentry.about id with
  | other hes hslot =>
    have hnone : es'.countP (Event.acquires id) = 0 := List.countP_eq_zero.mpr fun e he => by
      simp [(Event.isInert_of_slot?_ne (hes e he)).acquires]
    rw [hnone, hsame hslot]
    omega
  | claim hfree hrep =>
    rw [Table.occupants_of_slot hrep.old, Table.occupants_of_slot hrep.slot?_self, hfree]
    simp [Event.marks, Event.acquires, Slot.occupy]
  | issue huse hrep =>
    rw [Table.occupants_of_slot hrep.old, Table.occupants_of_slot hrep.slot?_self]
    simp [Event.marks, Event.acquires, Slot.issue]
  | @settle released s hrep =>
    have hle := Bool.toNat_le s.inUse
    rw [Table.occupants_of_slot hrep.old]
    simp [Event.marks, Event.acquires]
    omega
  | refuse hrefused hslot =>
    rw [hsame hslot]
    simp [Event.marks, Event.acquires]
  | @complete op g s haccepts hnew hrep =>
    -- Who lacks an operation is not marked, so the report does not release the slot.
    have huse := Slot.inUse_of_accepts haccepts
    have hkeeps : (s.complete op).isDrained = false := by
      simp [Slot.isDrained, Slot.complete, h.unmarked hrep.old huse hnew]
    rw [Slot.settle_of_not_drained hkeeps] at hrep
    rw [Table.occupants_of_slot hrep.old, Table.occupants_of_slot hrep.slot?_self]
    simp [Event.marks, Event.acquires, Slot.complete]

/-- Notes (`isNote`) accept, claim and mark nothing. -/
theorem counts_of_isNote (hes : ∀ e ∈ es, e.isNote = true) (id : WriteId) :
    es.filterMap Event.accepted? = [] ∧ es.countP (Event.acquires id) = 0 ∧
      es.countP (Event.marks id) = 0 :=
  ⟨List.filterMap_eq_nil_iff.mpr fun e he => accepted?_of_isNote (hes e he),
    countP_acquires_eq_zero id fun e he => slot?_of_isNote (hes e he),
    countP_marks_eq_zero fun e he => by rw [slot?_of_isNote (hes e he)]; exact nofun⟩

/-- A write that is `admitted` had its slot claimed, and one that is admitted no more was accepted.
A closed queue turns a write away, which loses its place then. -/
theorem Move.admitted (hmove : p.Move a es' p') (id : WriteId) :
    es'.countP (Event.acquires id) + p.admitted.count id =
        (es'.filterMap Event.accepted?).count id + p'.admitted.count id ∨
      p.admitted.count id = p'.admitted.count id + 1 ∧ p.presences id = p'.presences id + 1 ∧
        p'.table = p.table ∧ ∀ e ∈ es', e.isNote = true := by
  cases hmove with
  | note hes | stop hes | advance hes | turn hes =>
    obtain ⟨haccepted, hclaims, -⟩ := counts_of_isNote hes id
    rw [hclaims, haccepted]
    exact .inl rfl
  | @acquire k i t g admitted hacquire hadmitted =>
    left
    rw [hadmitted.count_eq, show [Event.acquired i g].filterMap Event.accepted? = [] from rfl]
    simp [Event.acquires, List.count_cons, Nat.add_comm]
  | @accept k i admitted hfree hadmitted =>
    left
    rw [hadmitted.count_eq]
    simp [Event.acquires, Event.accepted?, List.count_cons, Nat.add_comm]
  -- Only here a write loses its place without being accepted, and the second disjunct says so.
  | @turnAway k i admitted es hes hclosed hadmitted =>
    obtain ⟨haccepted, hclaims, -⟩ := counts_of_isNote hes id
    rw [hclaims, haccepted, hadmitted.count_eq, presences_eq (places_admitted hadmitted),
      List.map_cons, List.count_cons, List.count_cons, presences]
    by_cases hi : i = id
    · subst hi
      exact .inr ⟨by simp, by simp [Place.admitted], rfl, hes⟩
    · exact .inl (by simp [hi])
  | _ => exact .inl rfl

/-- A worker comes to `marking` only with the event that tells the client of the write. -/
theorem Move.marking (hmove : p.Move a es' p') (h : p'.workers.get st = .marking id) :
    p.workers.get st = .marking id ∨ es' = [.notified id] := by
  have hset {s : Stage} {phase : Phase} (h : (p.workers.set s phase).get st = .marking id) :
      p.workers.get st = .marking id ∨ phase = .marking id := by
    rw [PerStage.get_set] at h
    split at h
    · exact .inr h
    · exact .inl h
  cases hmove with
  | notify hphase =>
    rcases hset h with h | h
    · exact .inl h
    · obtain rfl := Phase.marking.inj h
      exact .inr rfl
  | take | stop | record | hand | pass | mark | fault | clientPanic | devicePanic =>
    exact .inl ((hset h).resolve_right nofun)
  | advance => exact .inl ((hset h).resolve_right (by split <;> exact nofun))
  | _ => exact .inl h

/-- A write is marked by the worker that is at `marking`, which goes back to `popping`. -/
theorem Move.marks (hmove : p.Move a es' p') (id : WriteId) :
    es'.countP (Event.marks id) = 0 ∨ es'.countP (Event.marks id) = 1 ∧
      ∃ st, p.workers.get st = .marking id ∧ p'.workers = p.workers.set st .popping := by
  cases hmove with
  | note hes | turnAway hes | stop hes | advance hes | turn hes =>
    exact .inl (counts_of_isNote hes id).2.2
  | @mark st i t released hphase =>
    by_cases hi : i = id
    · subst hi
      exact .inr ⟨by simp [Event.marks], st, hphase, rfl⟩
    · exact .inl (by simp [Event.marks, hi])
  | _ => exact .inl rfl

/-- An occupant with `issues` on record had one before, or has it with the entry. The entry does not
mark it. -/
theorem Entry.begun (hentry : p.Entry a p' es') (hc : p.Chronicle es)
    (hs : p'.table.slot? id = some s) (huse : s.inUse = true) (hunmarked : s.checkpointDone = false)
    (hissues : issues id (since id (es ++ es')) ≠ []) :
    es'.countP (Event.marks id) = 0 ∧ ((∃ st t, .issued st t ∈ es' ∧ t.writeId = id) ∨
      ∃ s, p.table.slot? id = some s ∧ s.inUse = true ∧ s.checkpointDone = false ∧
        issues id (since id es) ≠ []) := by
  have hbefore (hinert : ∀ e ∈ es', e.IsInert id)
      (hsame : p'.table.slot? id = p.table.slot? id) :
      ∃ s, p.table.slot? id = some s ∧ s.inUse = true ∧ s.checkpointDone = false ∧
        issues id (since id es) ≠ [] := by
    rw [issues_since_of_inert hinert] at hissues
    exact ⟨s, hsame ▸ hs, huse, hunmarked, hissues⟩
  cases hentry.about id with
  | other hes hslot =>
    have hinert : ∀ e ∈ es', e.IsInert id := fun e he => Event.isInert_of_slot?_ne (hes e he)
    exact ⟨countP_marks_eq_zero hes, .inr (hbefore hinert hslot)⟩
  | claim hfree hrep =>
    rw [since_acquired] at hissues
    exact absurd rfl hissues
  | issue huse hrep => exact ⟨rfl, .inl ⟨_, _, List.mem_singleton_self _, rfl⟩⟩
  | @settle released s₀ hrep =>
    -- The occupant is marked now, if it is still there.
    obtain rfl : s₀.mark.settle = s := Option.some.inj (hrep.slot?_self.symm.trans hs)
    unfold Slot.settle at huse hunmarked
    split at huse
    · cases huse
    · rename_i hkeeps
      rw [if_neg hkeeps] at hunmarked
      cases hunmarked
  | refuse hrefused hslot =>
    exact ⟨rfl, .inr (hbefore (by simpa using Event.isInert_of_refused hrefused) hslot)⟩
  | @complete op g s₀ haccepts hnew hrep =>
    have huse₀ := Slot.inUse_of_accepts haccepts
    rw [since_append (by simp [Event.acquires]), issues_append] at hissues
    refine ⟨rfl, .inr ⟨s₀, hrep.old, huse₀, hc.unmarked hrep.old huse₀ hnew, ?_⟩⟩
    simpa [issues, Event.issues?] using hissues

/-- A `Move` keeps the `Turns` of a write. -/
theorem Move.turns (hmove : p.Move a es' p') (hsuits : ∀ s, Suits s (p.workers.get s))
    (hc : p.Chronicle es) (h : p.Turns es id) : p'.Turns (es ++ es') id := by
  have hentry := hmove.entry hsuits
  have hpresences := hentry.presences id
  have hoccupants := hentry.occupants hc id
  have hlower := h.lower
  have hupper := h.upper
  have htold := h.told
  refine ⟨?_, ?_, ?_, ?_, ?_⟩
  · rw [List.countP_append, List.filterMap_append, List.count_append]
    rcases hmove.admitted id with hadmitted | ⟨hadmitted, hpresences, htable, hes⟩
    · omega
    · obtain ⟨haccepted, hclaims, hmarks⟩ := counts_of_isNote hes id
      rw [haccepted, List.count_nil]
      omega
  · rw [List.countP_append, List.filterMap_append, List.count_append]
    rcases hmove.admitted id with hadmitted | ⟨hadmitted, hpresences, htable, hes⟩
    · omega
    · obtain ⟨haccepted, hclaims, hmarks⟩ := counts_of_isNote hes id
      rw [haccepted, List.count_nil]
      omega
  · intro s hs huse hunmarked hissues
    rw [List.countP_append, List.filterMap_append, List.count_append]
    obtain ⟨hmarks, ⟨st, t, hissued, rfl⟩ | ⟨s₀, hs₀, huse₀, hunmarked₀, hissues₀⟩⟩ :=
      hentry.begun hc hs huse hunmarked hissues
    · -- A worker that puts an operation on record has an accepted write.
      obtain ⟨left, table, hphase, -⟩ := hmove.issued hissued
      have hplace : (p.workers.get st).place? st =
          some ⟨t.writeId, t.operation :: left ++ st.after, st.index, none⟩ := by rw [hphase]; rfl
      have haccepted := h.accepted_eq (hc.not_mem_admitted_of_worker hplace)
      omega
    · have hbegun := h.begun s₀ hs₀ huse₀ hunmarked₀ hissues₀
      omega
  · rw [List.countP_append, List.filterMap_append, List.count_append]
    rcases hmove.marks id with hmarks | ⟨hmarks, st, hphase, -⟩
    · omega
    · have hmarking := h.marking st hphase
      omega
  · intro st hphase'
    rw [List.countP_append, List.filterMap_append, List.count_append]
    rcases hmove.marking hphase' with hphase | rfl
    · have hmarking := h.marking st hphase
      rcases hmove.marks id with hmarks | ⟨-, st₀, hphase₀, hworkers⟩
      · omega
      · -- No two workers hold the write, so it is the same, and it is done with the write.
        rw [hworkers, PerStage.get_set] at hphase'
        split at hphase'
        · exact nomatch hphase'
        · rename_i hne
          have hplace₀ : (p.workers.get st₀).place? st₀ =
              some ⟨id, st₀.after, st₀.index + 1, none⟩ := by rw [hphase₀]; rfl
          have hplace : (p.workers.get st).place? st =
              some ⟨id, st.after, st.index + 1, none⟩ := by rw [hphase]; rfl
          exact (hc.place_ne hne hplace₀ hplace rfl).elim
    · simp [Event.marks, Event.notified?]
      omega

/-- The requests of a write are taken one after the other along every run (`Turns`). -/
theorem Run.turns (h : Run c as p es) (id : WriteId) : p.Turns es id := by
  induction h with
  | @start es hes =>
    obtain ⟨haccepted, -, hmarks⟩ := counts_of_isNote hes id
    have hnone : es.countP (Event.marks id) + (create c).presences id = 0 := by
      rw [hmarks]
      rfl
    refine ⟨by rw [hnone]; exact Nat.zero_le _, ?_, fun s hs huse => ?_, ?_, fun st hphase => ?_⟩
    · rw [haccepted]
      exact Nat.zero_le _
    · rw [Table.inUse_of_create _ hs] at huse
      exact nomatch huse
    · rw [hmarks]
      exact Nat.zero_le _
    · cases st <;> exact nomatch hphase
  | move hrun hmove ih => exact hmove.turns hrun.suited hrun.chronicle ih

/-! ## Accepted, told and marked -/

/-- Of the accepted requests of a write (`accepted?`) at most one is not marked. -/
theorem Turns.accepted_le (h : p.Turns es id) :
    (es.filterMap Event.accepted?).count id ≤ es.countP (Event.marks id) + 1 := by
  have hupper := h.upper
  have hle : p.table.occupants id ≤ 1 := Bool.toNat_le _
  omega

/-- The client is told of no more requests of a write (`notified?`) than were accepted. -/
theorem Delivers.notified_le (h : p.Delivers es) (id : WriteId) :
    (es.filterMap Event.notified?).count id ≤ (es.filterMap Event.accepted?).count id :=
  ((List.prefix_append _ _).trans h.isPrefix).sublist.count_le id

/-- An occupant that has completed everything (`full`) stays until it is marked. -/
private theorem Entry.full (hentry : p.Entry a p' es') (hs : p.table.slot? id = some s)
    (huse : s.inUse = true) (hfull : s.completed = .full)
    (hmarks : es'.countP (Event.marks id) = 0) :
    ∃ s', p'.table.slot? id = some s' ∧ s'.inUse = true ∧ s'.completed = .full := by
  have hsame {s₀ s' : Slot} (hrep : Table.Replaces p.table p'.table id s₀ s') : s₀ = s :=
    Option.some.inj (hrep.old.symm.trans hs)
  cases hentry.about id with
  | other hes hslot => exact ⟨s, hslot.trans hs, huse, hfull⟩
  | refuse hrefused hslot => exact ⟨s, hslot.trans hs, huse, hfull⟩
  | claim hfree hrep =>
    rw [hsame hrep, huse] at hfree
    exact nomatch hfree
  | issue huse hrep =>
    obtain rfl := hsame hrep
    exact ⟨_, hrep.slot?_self, huse, hfull⟩
  | settle hrep => simp [Event.marks] at hmarks
  | complete haccepts hnew hrep =>
    -- Nothing is new to an occupant that has completed everything.
    rw [hsame hrep, hfull, OpSet.contains_full] at hnew
    exact nomatch hnew

/-- A write of which the client was told has a `full` slot until it is marked. -/
theorem Run.full_of_told (h : Run c as p es)
    (htold : es.countP (Event.marks id) < (es.filterMap Event.notified?).count id) :
    ∃ s, p.table.slot? id = some s ∧ s.inUse = true ∧ s.completed = .full := by
  induction h with
  | start hes =>
    have hnone := List.filterMap_eq_nil_iff.mpr fun e he => notified?_of_isNote (hes e he)
    rw [hnone] at htold
    exact absurd htold (Nat.not_lt_zero _)
  | @move as p p' es es' a hrun hmove ih =>
    have hentry := hmove.entry hrun.suited
    rw [List.countP_append, List.filterMap_append, List.count_append] at htold
    by_cases hnow : .notified id ∈ es'
    · obtain ⟨s, hfull, hsecured⟩ := secured_of_notified hrun hmove hnow
      have hslots : p'.table.slots = p.table.slots := by
        cases hentry with
        | idle _ hslots | lose _ hslots | progress _ hslots => exact hslots
        | claim | issue | settle | report => simp at hnow
      exact ⟨s, (slot?_of_slots_eq hslots id).trans hsecured.slot?_eq, hsecured.inUse, hfull⟩
    · have hnone : (es'.filterMap Event.notified?).count id = 0 := by
        refine List.count_eq_zero.mpr fun hmem => hnow ?_
        obtain ⟨e, he, hid⟩ := List.mem_filterMap.mp hmem
        cases e <;> first | cases hid; exact he | cases hid
      -- One request at most is accepted and not marked, so this was the one before the move.
      have hle := hrun.delivers.notified_le id
      have hone := (hrun.turns id).accepted_le
      obtain ⟨s, hs, huse, hfull⟩ := ih (by omega)
      exact hentry.full hs huse hfull (by omega)

end Pipeline

end WriteAhead
