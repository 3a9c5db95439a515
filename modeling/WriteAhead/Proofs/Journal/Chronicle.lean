import WriteAhead.Proofs.Journal.Places

/-!
# The invariant of slots, places and history

`Chronicle` ties the three accounts of a pipeline together: what a slot holds is what the history
tells of its occupant, and a write at a place occupies its slot, with just those operations on
record and just those joins passed that the place says. Only one write at a time has a place for
each slot. The tie holds for any reports, in any order and at any time, since a report can only add
to the operations that are noted as complete.

## Key results

- `Entry.about`: what an entry does to the slot of one write
- `Entry.chronicle`: every entry keeps the tie
- `Run.chronicle`: it holds along every run
-/

namespace WriteAhead

variable {id : WriteId} {es es' : List Event} {s s' : Slot}

/-- What the history and the slot tell of a write at its place. -/
structure Place.Fits (place : Place) (es : List Event) (s : Slot) : Prop where
  inUse : s.inUse = true
  unmarked : s.checkpointDone = false
  issues_left : issues place.id (since place.id es) ++ place.left = Operation.all
  passed : ∀ op : Operation, op.stage.index < place.passed → s.completed.contains op = true
  token : ∀ t, place.token? = some t → t.writeId = place.id ∧ t.generation = s.generation ∧
    .issued t.operation.stage t ∈ since place.id es

/-- More events that put nothing on record and more reports keep a write fit for its place
(`Place.Fits`). -/
theorem Place.Fits.mono {place : Place} (h : place.Fits es s)
    (hacquires : ∀ e ∈ es', e.acquires place.id = false)
    (hissues : ∀ e ∈ es', e.issues? place.id = none) (huse : s'.inUse = true)
    (hunmarked : s'.checkpointDone = false) (hgen : s'.generation = s.generation)
    (hcompleted : ∀ op, s.completed.contains op = true → s'.completed.contains op = true) :
    place.Fits (es ++ es') s' := by
  refine ⟨huse, hunmarked, ?_, fun op hop => hcompleted op (h.passed op hop), fun t ht => ?_⟩
  · rw [since_append hacquires, issues_append,
      show issues place.id es' = [] from List.filterMap_eq_nil_iff.mpr hissues, List.append_nil]
    exact h.issues_left
  · obtain ⟨hid, hg, hmem⟩ := h.token t ht
    rw [since_append hacquires]
    exact ⟨hid, hg.trans hgen.symm, List.mem_append_left _ hmem⟩

/-- What is known of an occupant with which the checkpoint stage is done. -/
structure Marked (es : List Event) (id : WriteId) (s : Slot) : Prop where
  completed : s.completed = .full
  issues_eq : issues id (since id es) = Operation.all
  pendingIo : 0 < s.pendingIo

/-- Events on other slots leave an occupant `Marked`. -/
theorem Marked.inert (h : Marked es id s) (hinert : ∀ e ∈ es', e.IsInert id) :
    Marked (es ++ es') id s :=
  ⟨h.completed, (issues_since_of_inert hinert).trans h.issues_eq, h.pendingIo⟩

namespace Pipeline

variable {p p' : Pipeline} {a : Journal.Action}

/-- The slots, the places and the history agree. -/
structure Chronicle (p : Pipeline) (es : List Event) : Prop where
  occupied : ∀ id s, p.table.slot? id = some s → s.inUse = true → Occupancy es id s
  marked : ∀ id s, p.table.slot? id = some s → s.inUse = true → s.checkpointDone = true →
    Marked es id s
  nodup : (p.places.map Place.id).Nodup
  placed : ∀ place ∈ p.places, ∃ s, p.table.slot? place.id = some s ∧ place.Fits es s

theorem slot?_of_slots_eq (h : p'.table.slots = p.table.slots) (id : WriteId) :
    p'.table.slot? id = p.table.slot? id := by
  rw [Table.slot?, Table.slot?, h]

/-- What an entry does to the slot of one write. -/
inductive Entry.About (p p' : Pipeline) (id : WriteId) : List Event → Prop where
  /-- It is about something else. -/
  | other {es : List Event} (hes : ∀ e ∈ es, e.slot? ≠ some id)
      (hslot : p'.table.slot? id = p.table.slot? id) : About p p' id es
  | claim {g : Generation} {s : Slot} (hfree : s.inUse = false)
      (hrep : Table.Replaces p.table p'.table id s s.occupy) : About p p' id [.acquired id g]
  | issue {st : Stage} {op : Operation} {g : Generation} {s : Slot} (huse : s.inUse = true)
      (hrep : Table.Replaces p.table p'.table id s s.issue) :
      About p p' id [.issued st ⟨id, op, g⟩]
  | settle {released : Bool} {s : Slot}
      (hrep : Table.Replaces p.table p'.table id s s.mark.settle) :
      About p p' id [.checkpointed id released]
  /-- A report is refused. -/
  | refuse {op : Operation} {g : Option Generation} {v : Table.Verdict}
      (hrefused : v.isAccepted = false) (hslot : p'.table.slot? id = p.table.slot? id) :
      About p p' id [.reported id op g v]
  /-- A report is noted. -/
  | complete {op : Operation} {g : Option Generation} {s : Slot} (haccepts : s.accepts g = true)
      (hnew : s.completed.contains op = false)
      (hrep : Table.Replaces p.table p'.table id s (s.complete op).settle) :
      About p p' id [.reported id op g (.ofSlot s op)]

/-- An `Entry` is about one slot at most. -/
theorem Entry.about (hentry : p.Entry a p' es') (id : WriteId) : Entry.About p p' id es' := by
  -- An entry either touches no slot, or the slot of one write. For any other `id` nothing happens.
  have hquiet (hes : ∀ e ∈ es', e.slot? = none) (hslots : p'.table.slots = p.table.slots) :
      Entry.About p p' id es' :=
    .other (fun e he => by rw [hes e he]; exact nofun) (slot?_of_slots_eq hslots id)
  have hforeign {i : WriteId} (hi : id ≠ i) (hes : ∀ e ∈ es', e.slot? = some i) {s s' : Slot}
      (hrep : Table.Replaces p.table p'.table i s s') : Entry.About p p' id es' :=
    .other (fun e he heq => hi (Option.some.inj (heq.symm.trans (hes e he))))
      (hrep.slot?_of_ne hi)
  cases hentry with
  | idle hes hslots | lose hes hslots | progress hes hslots => exact hquiet hes hslots
  | @claim i g hacquire =>
    obtain ⟨s, hfree, -, -, hrep⟩ := Table.acquire_granted hacquire
    by_cases hi : id = i
    · subst hi
      exact .claim hfree hrep
    · exact hforeign hi (by simp [Event.slot?]) hrep
  | @issue st i op left g rest hop hissue =>
    obtain ⟨s, huse, -, hrep⟩ := Table.recordIssue_ok hissue
    by_cases hi : id = i
    · subst hi
      exact .issue huse hrep
    · exact hforeign hi (by simp [Event.slot?]) hrep
  | @settle i released hmark =>
    obtain ⟨s, -, hrep⟩ := Table.markCheckpointDone_ok hmark
    by_cases hi : id = i
    · subst hi
      exact .settle hrep
    · exact hforeign hi (by simp [Event.slot?]) hrep
  | @report i op g v hreport =>
    rcases Table.recordCompletion_cases hreport with ⟨hrefused, hslots, -⟩ |
      ⟨s, haccepts, hnew, rfl, hrep⟩
    · by_cases hi : id = i
      · subst hi
        exact .refuse hrefused (slot?_of_slots_eq hslots id)
      · exact .other (by simpa [Event.slot?] using Ne.symm hi) (slot?_of_slots_eq hslots id)
    · by_cases hi : id = i
      · subst hi
        exact .complete haccepts hnew hrep
      · exact hforeign hi (by simp [Event.slot?]) hrep

/-- A place in front of other `places` is of another slot than they are. -/
theorem Chronicle.ne_of_mem {place : Place} {rest : List Place} (h : p.Chronicle es)
    (hplaces : p.places.Perm (place :: rest)) {place' : Place} (hmem : place' ∈ rest) :
    place'.id ≠ place.id := by
  have hnodup := (hplaces.map Place.id).nodup_iff.mp h.nodup
  rw [List.map_cons, List.nodup_cons] at hnodup
  intro heq
  exact hnodup.1 (heq ▸ List.mem_map_of_mem hmem)

/-- The place of a write fits its slot (`Place.Fits`). -/
theorem Chronicle.fits {place : Place} (h : p.Chronicle es) (hmem : place ∈ p.places)
    (hslot : p.table.slot? place.id = some s) : place.Fits es s := by
  obtain ⟨s', hs', hfits⟩ := h.placed place hmem
  rw [hslot, Option.some.injEq] at hs'
  rw [hs']
  exact hfits

/-- Seven operations of an occupant can be outstanding, since each is put on record once. So
`pendingIo` is far from the end of its type. -/
theorem Chronicle.pendingIo_le (h : p.Chronicle es) (hs : p.table.slot? id = some s)
    (huse : s.inUse = true) : s.pendingIo ≤ 7 := by
  have hoccupancy := h.occupied id s hs huse
  have hissues := hoccupancy.issues_prefix.length_le
  rw [show Operation.all.length = 7 from rfl] at hissues
  exact Nat.le_trans hoccupancy.pendingIo_le hissues

/-- As long as an operation is not on record, `pendingIo` can go up by one and stays below 8. -/
theorem Chronicle.pendingIo_lt {place : Place} {op : Operation} {left : List Operation}
    (h : p.Chronicle es) (hmem : place ∈ p.places) (hleft : place.left = op :: left)
    (hs : p.table.slot? place.id = some s) : s.pendingIo + 1 ≤ 7 := by
  have hfits := h.fits hmem hs
  have hle := (h.occupied place.id s hs hfits.inUse).pendingIo_le
  have hall := congrArg List.length hfits.issues_left
  rw [hleft, List.length_append, List.length_cons, show Operation.all.length = 7 from rfl] at hall
  omega

/-- A write at its place can have an operation put on record: `recordIssue` finds its slot in
use. -/
theorem Chronicle.recordIssue_ne_error {place : Place} {f : Table.Fault} (h : p.Chronicle es)
    (hmem : place ∈ p.places) : p.table.recordIssue place.id ≠ .error f := by
  obtain ⟨s, hs, hfits⟩ := h.placed place hmem
  have hle := h.pendingIo_le hs hfits.inUse
  obtain ⟨t, ht⟩ := Table.recordIssue_eq_ok hs hfits.inUse
    (show s.pendingIo < Table.maxPending by unfold Table.maxPending; omega)
  rw [ht]
  exact nofun

/-- No two workers hold writes of one slot, since the `places` are distinct. -/
theorem Chronicle.place_ne {st st' : Stage} {place place' : Place} (h : p.Chronicle es)
    (hne : st' ≠ st) (hplace : (p.workers.get st).place? st = some place)
    (hplace' : (p.workers.get st').place? st' = some place') : place'.id ≠ place.id := by
  -- With the write of one worker taken out, that of the other is still there.
  have hperm := p.places_setPhase st .popping
  rw [hplace] at hperm
  refine h.ne_of_mem hperm.symm (mem_places_of_phase (s := st') ?_)
  rw [setPhase, PerStage.get_set, if_neg hne]
  exact hplace'

/-- An occupant that lacks an operation has no `checkpointDone`, since the last worker marks after
the last join. -/
theorem Chronicle.unmarked {op : Operation} (h : p.Chronicle es) (hs : p.table.slot? id = some s)
    (huse : s.inUse = true) (hlacks : s.completed.contains op = false) :
    s.checkpointDone = false := by
  by_contra hdone
  have hmarked := h.marked id s hs huse (by simpa using hdone)
  rw [hmarked.completed, OpSet.contains_full] at hlacks
  exact nomatch hlacks

/-- An entry that changes no slot keeps the `Chronicle` if each place still fits. -/
private theorem Chronicle.quiet (h : p.Chronicle es) (hinert : ∀ i, ∀ e ∈ es', e.IsInert i)
    (hslots : p'.table.slots = p.table.slots) (hnodup : (p'.places.map Place.id).Nodup)
    (hplaced : ∀ place ∈ p'.places, ∃ s, p.table.slot? place.id = some s ∧ place.Fits es s) :
    p'.Chronicle (es ++ es') := by
  refine ⟨fun i s hs huse => ?_, fun i s hs huse hdone => ?_, hnodup, fun place hmem => ?_⟩
  · rw [slot?_of_slots_eq hslots] at hs
    exact (h.occupied i s hs huse).inert (hinert i) rfl rfl rfl
  · rw [slot?_of_slots_eq hslots] at hs
    exact (h.marked i s hs huse hdone).inert (hinert i)
  · obtain ⟨s, hs, hfits⟩ := hplaced place hmem
    rw [slot?_of_slots_eq hslots]
    exact ⟨s, hs, hfits.mono (fun e he => (hinert _ e he).acquires)
      (fun e he => (hinert _ e he).issues?) hfits.inUse hfits.unmarked rfl fun _ ho => ho⟩

/-- An entry that replaces one slot keeps the `Chronicle` if what stands there then agrees with the
history and with the place of its write. -/
private theorem Chronicle.replaces (h : p.Chronicle es)
    (hrep : Table.Replaces p.table p'.table id s s') (hes : ∀ e ∈ es', e.slot? = some id)
    (hoccupied : s'.inUse = true → Occupancy (es ++ es') id s')
    (hmarked : s'.inUse = true → s'.checkpointDone = true → Marked (es ++ es') id s')
    (hnodup : (p'.places.map Place.id).Nodup)
    (hothers : ∀ place ∈ p'.places, place.id ≠ id → place ∈ p.places)
    (hself : ∀ place ∈ p'.places, place.id = id → place.Fits (es ++ es') s') :
    p'.Chronicle (es ++ es') := by
  have hinert : ∀ i ≠ id, ∀ e ∈ es', e.IsInert i := fun i hi e he =>
    Event.isInert_of_slot?_eq_some (hes e he) hi
  -- Each part is asked of the slot `id` and of the others, to which the events say nothing.
  refine ⟨fun i t ht huse => ?_, fun i t ht huse hdone => ?_, hnodup, fun place hmem => ?_⟩
  · by_cases hi : i = id
    · subst hi
      rw [hrep.slot?_self, Option.some.injEq] at ht
      subst ht
      exact hoccupied huse
    · rw [hrep.slot?_of_ne hi] at ht
      exact (h.occupied i t ht huse).inert (hinert i hi) rfl rfl rfl
  · by_cases hi : i = id
    · subst hi
      rw [hrep.slot?_self, Option.some.injEq] at ht
      subst ht
      exact hmarked huse hdone
    · rw [hrep.slot?_of_ne hi] at ht
      exact (h.marked i t ht huse hdone).inert (hinert i hi)
  · by_cases hi : place.id = id
    · exact ⟨s', by rw [hi]; exact hrep.slot?_self, hself place hmem hi⟩
    · obtain ⟨t, ht, hfits⟩ := h.placed place (hothers place hmem hi)
      refine ⟨t, by rw [hrep.slot?_of_ne hi]; exact ht, ?_⟩
      exact hfits.mono (fun e he => (hinert _ hi e he).acquires)
        (fun e he => (hinert _ hi e he).issues?) hfits.inUse hfits.unmarked rfl fun _ ho => ho

private theorem nodup_of_perm {l l' : List Place} (h : (l.map Place.id).Nodup)
    (hperm : l'.Perm l) : (l'.map Place.id).Nodup := (hperm.map Place.id).nodup_iff.mpr h

/-- A claim keeps the `Chronicle`: the slot was free, so no write had a place for it. -/
private theorem Chronicle.claim {g : Generation} (h : p.Chronicle es)
    (hacquire : p.table.acquire id = .granted p'.table g)
    (hplaces : p'.places.Perm (.admitted id :: p.places)) :
    p'.Chronicle (es ++ [.acquired id g]) := by
  obtain ⟨s, hfree, -, hg, hrep⟩ := Table.acquire_granted hacquire
  obtain rfl : g = s.occupy.generation := hg
  -- The slot was free, so no write had a place for it.
  have hnew : ∀ place ∈ p.places, place.id ≠ id := by
    rintro place hmem rfl
    have := (h.fits hmem hrep.old).inUse
    rw [hfree] at this
    cases this
  refine h.replaces hrep (by simp [Event.slot?]) (fun _ => .claim es id s) nofun ?_ ?_ ?_
  · refine nodup_of_perm ?_ hplaces
    rw [List.map_cons, List.nodup_cons]
    refine ⟨fun hmem => ?_, h.nodup⟩
    obtain ⟨place, hplace, hid⟩ := List.mem_map.mp hmem
    exact hnew place hplace hid
  · intro place hmem hid
    rcases List.mem_cons.mp (hplaces.mem_iff.mp hmem) with rfl | hmem
    · exact absurd rfl hid
    · exact hmem
  · intro place hmem hid
    rcases List.mem_cons.mp (hplaces.mem_iff.mp hmem) with rfl | hmem
    · refine ⟨rfl, rfl, ?_, fun op hop => absurd hop (Nat.not_lt_zero _), by rintro _ ⟨⟩⟩
      rw [show (Place.admitted id).id = id from rfl, since_acquired]
      rfl
    · exact absurd hid (hnew place hmem)

/-- An issue keeps the `Chronicle`: the operation goes from what is left of the place to what is on
record. -/
private theorem Chronicle.issue {st : Stage} {op : Operation} {left : List Operation}
    {g : Generation} {rest : List Place} (h : p.Chronicle es) (hop : op.stage = st)
    (hissue : p.table.recordIssue id = .ok (p'.table, g))
    (hplaces : p.places.Perm (⟨id, op :: left, st.index, none⟩ :: rest))
    (hplaces' : p'.places.Perm (⟨id, left, st.index, some ⟨id, op, g⟩⟩ :: rest)) :
    p'.Chronicle (es ++ [.issued st ⟨id, op, g⟩]) := by
  obtain ⟨s, huse, rfl, hrep⟩ := Table.recordIssue_ok hissue
  have hfits := h.fits (hplaces.mem_iff.mpr List.mem_cons_self) hrep.old
  have hoccupancy := (h.occupied id s hrep.old huse).issue st s.generation
    hfits.issues_left
  have hsince : since id (es ++ [.issued st ⟨id, op, s.generation⟩]) =
      since id es ++ [.issued st ⟨id, op, s.generation⟩] :=
    since_append (by simp [Event.acquires])
  refine h.replaces hrep (by simp [Event.slot?]) (fun _ => hoccupancy) ?_ ?_ ?_ ?_
  · intro _ hdone
    have := hfits.unmarked
    rw [show s.checkpointDone = true from hdone] at this
    cases this
  · have hids := (hplaces.map Place.id).nodup_iff.mp h.nodup
    exact (hplaces'.map Place.id).nodup_iff.mpr hids
  · intro place hmem hid
    rcases List.mem_cons.mp (hplaces'.mem_iff.mp hmem) with rfl | hmem
    · exact absurd rfl hid
    · exact hplaces.mem_iff.mpr (List.mem_cons_of_mem _ hmem)
  · intro place hmem hid
    rcases List.mem_cons.mp (hplaces'.mem_iff.mp hmem) with rfl | hmem
    · -- The operation has gone from the list of what is left to the record.
      refine ⟨huse, hfits.unmarked, ?_, hfits.passed, ?_⟩
      · rw [hsince, issues_append, List.append_assoc]
        have : issues id [.issued st ⟨id, op, s.generation⟩] = [op] := by
          simp [issues, Event.issues?]
        rw [this]
        exact hfits.issues_left
      · intro t ht
        obtain rfl := Option.some.inj ht
        refine ⟨rfl, rfl, ?_⟩
        rw [hsince, hop]
        exact List.mem_append_right _ List.mem_cons_self
    · exact absurd hid (h.ne_of_mem hplaces hmem)

/-- A mark keeps the `Chronicle`: the write leaves its place, with everything issued and
completed. -/
private theorem Chronicle.settle {released : Bool} (h : p.Chronicle es)
    (hmark : p.table.markCheckpointDone id = .ok (p'.table, released))
    (hplaces : p.places.Perm (⟨id, [], 3, none⟩ :: p'.places)) :
    p'.Chronicle (es ++ [.checkpointed id released]) := by
  obtain ⟨s, hreleased, hrep⟩ := Table.markCheckpointDone_ok hmark
  have hfits := h.fits (hplaces.mem_iff.mpr List.mem_cons_self) hrep.old
  have hfull : s.completed = .full := by
    rw [OpSet.eq_full_iff]
    exact fun op => hfits.passed op (Nat.lt_succ_of_le op.stage.index_le)
  have hissues : issues id (since id es) = Operation.all := by
    rw [← hfits.issues_left, List.append_nil]
  have hothers : ∀ place ∈ p'.places, place.id ≠ id := fun place hmem => h.ne_of_mem hplaces hmem
  have hnodup := (hplaces.map Place.id).nodup_iff.mp h.nodup
  rw [List.map_cons, List.nodup_cons] at hnodup
  -- Either the mark frees the slot, or the occupant stays with something outstanding.
  cases hdrained : s.mark.isDrained with
  | true =>
    rw [Slot.settle_of_drained (s := s.mark) hfits.inUse hdrained] at hrep
    exact h.replaces hrep (by simp [Event.slot?]) nofun nofun hnodup.2
      (fun place hmem _ => hplaces.mem_iff.mpr (List.mem_cons_of_mem _ hmem))
      fun place hmem hid => absurd hid (hothers place hmem)
  | false =>
    rw [Slot.settle_of_not_drained hdrained] at hrep
    rw [hdrained, Bool.and_false] at hreleased
    subst hreleased
    have hinert : ∀ e ∈ [Event.checkpointed id false], e.IsInert id := by
      simp [Event.isInert_of_not_released]
    refine h.replaces hrep (by simp [Event.slot?])
      (fun _ => (h.occupied id s hrep.old hfits.inUse).inert hinert rfl rfl rfl) (fun _ _ => ?_)
      hnodup.2 (fun place hmem _ => hplaces.mem_iff.mpr (List.mem_cons_of_mem _ hmem))
      fun place hmem hid => absurd hid (hothers place hmem)
    refine ⟨hfull, (issues_since_of_inert hinert).trans hissues, ?_⟩
    · simp only [Slot.isDrained, Slot.mark, Bool.true_and, beq_eq_false_iff_ne] at hdrained
      exact Nat.pos_of_ne_zero hdrained

/-- A report keeps the `Chronicle`, whenever it comes: it can only add to what has completed. -/
private theorem Chronicle.report {op : Operation} {g : Option Generation} {v : Table.Verdict}
    (h : p.Chronicle es) (hreport : p.table.recordCompletion id op g = (p'.table, v))
    (hplaces : p'.places.Perm p.places) : p'.Chronicle (es ++ [.reported id op g v]) := by
  have hnodup := nodup_of_perm h.nodup hplaces
  rcases Table.recordCompletion_cases hreport with ⟨hrefused, hslots, -, -, -⟩ |
    ⟨s, haccepts, hnew, rfl, hrep⟩
  · refine h.quiet (fun i e he => ?_) hslots hnodup fun place hmem =>
      h.placed place (hplaces.mem_iff.mp hmem)
    rw [List.mem_singleton.mp he]
    exact Event.isInert_of_refused hrefused
  · have huse := Slot.inUse_of_accepts haccepts
    -- An occupant that is marked has completed everything, so the report is not for one.
    have hunmarked := h.unmarked hrep.old huse hnew
    have hkeeps : (s.complete op).isDrained = false := by
      simp [Slot.isDrained, Slot.complete, hunmarked]
    rw [Slot.settle_of_not_drained hkeeps] at hrep
    refine h.replaces hrep (by simp [Event.slot?])
      (fun _ => (h.occupied id s hrep.old huse).report hnew hkeeps) ?_ hnodup
      (fun place hmem _ => hplaces.mem_iff.mp hmem) fun place hmem hid => ?_
    · intro _ hdone
      rw [show s.checkpointDone = true from hdone] at hunmarked
      cases hunmarked
    · subst hid
      have hfits := h.fits (hplaces.mem_iff.mp hmem) hrep.old
      refine hfits.mono (by simp [Event.acquires]) (by simp [Event.issues?]) huse hunmarked rfl ?_
      intro o ho
      simp [Slot.complete, ho]

/-- An `Entry` keeps the slots, the places and the history in agreement: one case for each kind of
entry. -/
theorem Entry.chronicle (hentry : p.Entry a p' es') (h : p.Chronicle es) :
    p'.Chronicle (es ++ es') := by
  have hinert (hes : ∀ e ∈ es', e.slot? = none) : ∀ i, ∀ e ∈ es', e.IsInert i :=
    fun i e he => Event.isInert_of_slot?_eq_none (hes e he)
  cases hentry with
  | idle hes hslots hplaces =>
    exact h.quiet (hinert hes) hslots (nodup_of_perm h.nodup hplaces) fun place hmem =>
      h.placed place (hplaces.mem_iff.mp hmem)
  | lose hes hslots hplaces =>
    have hsub := hplaces.symm.subset
    have hnodup := (hplaces.map Place.id).nodup_iff.mp h.nodup
    rw [List.map_append, List.nodup_append] at hnodup
    exact h.quiet (hinert hes) hslots hnodup.2.1 fun place hmem =>
      h.placed place (hsub (List.mem_append_right _ hmem))
  | claim hacquire hplaces => exact h.claim hacquire hplaces
  | issue hop hissue hplaces hplaces' => exact h.issue hop hissue hplaces hplaces'
  | @progress es place passed rest hes hslots hplaces hplaces' hpassed =>
    have hids := (hplaces.map Place.id).nodup_iff.mp h.nodup
    refine h.quiet (hinert hes) hslots ((hplaces'.map Place.id).nodup_iff.mpr hids)
      fun place' hmem => ?_
    rcases List.mem_cons.mp (hplaces'.mem_iff.mp hmem) with rfl | hmem
    · -- A join is passed only once the slot has all operations of its stage.
      obtain ⟨s, hs, hfits⟩ := h.placed place (hplaces.mem_iff.mpr List.mem_cons_self)
      refine ⟨s, hs, hfits.inUse, hfits.unmarked, hfits.issues_left, fun op hop => ?_, nofun⟩
      rcases hpassed op hop with hold | ⟨s', hs', hcontains⟩
      · exact hfits.passed op hold
      · rw [hs, Option.some.injEq] at hs'
        rw [hs']
        exact hcontains
    · exact h.placed place' (hplaces.mem_iff.mpr (List.mem_cons_of_mem _ hmem))
  | settle hmark hplaces => exact h.settle hmark hplaces
  | report hreport hplaces => exact h.report hreport hplaces

/-- The slots, the places and the history agree along every run (`Chronicle`). -/
theorem Run.chronicle {c : Config} {as : List Journal.Action} (h : Run c as p es) :
    p.Chronicle es := by
  induction h with
  | start =>
    refine ⟨fun i s hs huse => ?_, fun i s hs huse => ?_, List.nodup_nil, nofun⟩
    · rw [Table.inUse_of_create _ hs] at huse
      exact nomatch huse
    · rw [Table.inUse_of_create _ hs] at huse
      exact nomatch huse
  | move hrun hmove ih => exact (hmove.entry hrun.suited).chronicle ih

end Pipeline

end WriteAhead
