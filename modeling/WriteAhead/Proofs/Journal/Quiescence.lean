import WriteAhead.Proofs.Journal.Custody
import WriteAhead.Proofs.Journal.Keeping
import WriteAhead.Proofs.Journal.Tally

/-!
# A journal with nothing in flight

Whatever the order in which the threads went on and the operations completed, a journal that is not
shut down and has no slot in use is the same for the same accepted writes. Every write in a place
keeps its slot in use, so none is in a place any more. A worker that comes to its end leaves a write
in no place whose slot is never freed, so all workers are still there. Then all that was accepted
got through, and each claim on a slot was that of an accepted write.

## Key results

- `Pipeline.Run.alive_or_stranded`: a worker comes to its end only with a slot that is never freed
- `Pipeline.Run.countP_acquires`: each claim was accepted or is about to be
- `Journal.Run.quiescent`: what a journal with nothing in flight looks like
- `Journal.Run.determined`: the accepted writes determine it
-/

namespace WriteAhead

namespace Pipeline

variable {p p' : Pipeline} {a : Journal.Action} {as : List Journal.Action} {c : Config}
  {es es' : List Event} {id : WriteId} {s : Slot} {st : Stage}

/-! ## Workers that have come to their end -/

/-- A write is in no place, and its slot is in use and not marked. -/
def Stranded (p : Pipeline) : Prop :=
  ∃ id s, p.table.slot? id = some s ∧ s.inUse = true ∧ s.checkpointDone = false ∧
    id ∉ p.places.map Place.id

/-- A slot in use without `checkpointDone`, and whose write has no place, stays so: only the last
worker marks, and without the mark no report releases it. -/
private theorem Entry.unmarked (hentry : p.Entry a p' es') (hs : p.table.slot? id = some s)
    (huse : s.inUse = true) (hunmarked : s.checkpointDone = false)
    (hnowhere : id ∉ p.places.map Place.id) :
    ∃ s', p'.table.slot? id = some s' ∧ s'.inUse = true ∧ s'.checkpointDone = false := by
  -- What the pipeline does to a slot it does for a write in a place, so not for this one.
  have hne {place : Place} {rest : List Place} (hplaces : p.places.Perm (place :: rest)) :
      id ≠ place.id := by
    rintro rfl
    exact hnowhere (List.mem_map_of_mem (hplaces.mem_iff.mpr List.mem_cons_self))
  cases hentry with
  | idle hes hslots | lose hes hslots | progress hes hslots =>
    exact ⟨s, by rw [slot?_of_slots_eq hslots, hs], huse, hunmarked⟩
  | @claim i g hacquire =>
    obtain ⟨s₀, -, -, -, hrep⟩ := Table.acquire_granted hacquire
    have hi : id ≠ i := by
      rintro rfl
      exact Table.acquire_ne_granted hs huse hacquire
    exact ⟨s, by rw [hrep.slot?_of_ne hi, hs], huse, hunmarked⟩
  | issue hop hissue hplaces =>
    obtain ⟨s₀, -, -, hrep⟩ := Table.recordIssue_ok hissue
    exact ⟨s, by rw [hrep.slot?_of_ne (hne hplaces), hs], huse, hunmarked⟩
  | settle hmark hplaces =>
    obtain ⟨s₀, -, hrep⟩ := Table.markCheckpointDone_ok hmark
    exact ⟨s, by rw [hrep.slot?_of_ne (hne hplaces), hs], huse, hunmarked⟩
  | @report i op g v hreport =>
    rcases Table.recordCompletion_cases hreport with ⟨-, hslots, -⟩ | ⟨s₀, -, -, -, hrep⟩
    · exact ⟨s, by rw [slot?_of_slots_eq hslots, hs], huse, hunmarked⟩
    · by_cases hi : id = i
      · -- A report does not release a slot that is not marked.
        subst hi
        rw [hrep.old, Option.some.injEq] at hs
        subst hs
        have hkeeps : (s₀.complete op).isDrained = false := by
          simp [Slot.isDrained, Slot.complete, hunmarked]
        rw [Slot.settle_of_not_drained hkeeps] at hrep
        exact ⟨_, hrep.slot?_self, huse, hunmarked⟩
      · exact ⟨s, by rw [hrep.slot?_of_ne hi, hs], huse, hunmarked⟩

/-- Nothing takes care of a `Stranded` write any more, so it stays so. -/
theorem Entry.stranded (hentry : p.Entry a p' es') (h : p.Stranded) : p'.Stranded := by
  obtain ⟨id, s, hs, huse, hunmarked, hnowhere⟩ := h
  obtain ⟨s', hs', huse', hunmarked'⟩ := hentry.unmarked hs huse hunmarked hnowhere
  refine ⟨id, s', hs', huse', hunmarked', fun hmem => ?_⟩
  rcases hentry.mem_places hmem with hold | ⟨g, -, hacquire⟩
  · exact hnowhere hold
  · exact Table.acquire_ne_granted hs huse hacquire

/-- A worker that comes to its end with a write leaves it `Stranded`. -/
theorem Chronicle.stranded {place : Place} {phase : Phase} (hc : p.Chronicle es)
    (hplace : (p.workers.get st).place? st = some place) (hphase : phase.place? st = none) :
    (p.setPhase st phase).Stranded := by
  have hplaces := places_setPhase_none (p := p) phase hphase
  rw [hplace] at hplaces
  obtain ⟨s, hs, hfits⟩ := hc.placed place (hplaces.mem_iff.mpr List.mem_cons_self)
  refine ⟨place.id, s, hs, hfits.inUse, hfits.unmarked, fun hmem => ?_⟩
  obtain ⟨place', hmem', hid⟩ := List.mem_map.mp hmem
  exact hc.ne_of_mem hplaces hmem' hid

/-- A `Move` of an open pipeline whose workers are alive leaves them alive, or a write stranded. -/
theorem Move.alive_or_stranded (hmove : p.Move a es' p') (hopen : p.IsOpen)
    (hc : p.Chronicle es) (h : p.Alive) : p'.Alive ∨ p'.Stranded := by
  cases hmove with
  | stop hes hcause =>
    -- A worker stops for a closed queue or a table that is shut down, and there is neither.
    rcases hcause with ⟨t, ht⟩ | hdown
    · rw [hopen.lines t] at ht
      exact nomatch ht
    · rw [hopen.table] at hdown
      exact nomatch hdown
  | @fault st f id hphase =>
    obtain ⟨place, hplace, -⟩ := Phase.place?_of_held? (s := st) hphase
    exact .inr (hc.stranded hplace rfl)
  | clientPanic hphase => exact .inr (hc.stranded (by rw [hphase]; rfl) rfl)
  | @devicePanic st t left hphase =>
    have hc' : Chronicle { p with outstanding := p.outstanding ++ [t] } es :=
      ⟨hc.occupied, hc.marked, hc.nodup, hc.placed⟩
    have hplace : (p.workers.get st).place? st =
        some ⟨t.writeId, left ++ st.after, st.index, some t⟩ := by
      rw [hphase]
      rfl
    exact .inr (hc'.stranded hplace rfl)
  | take | record | hand | pass | notify | mark => exact .inl (Alive.setPhase h rfl)
  | advance => exact .inl (Alive.setPhase h (by split <;> rfl))
  | note | acquire | accept | turnAway | complete | drop | report | close | abort | turn =>
    exact .inl h

/-- A pipeline whose shutdown has not begun has all its queues open, and its table (`IsOpen`). -/
theorem Run.isOpen (h : Run c as p es) (hopen : p.closing = .open) : p.IsOpen := by
  induction h with
  | start => exact ⟨fun s => by cases s <;> rfl, rfl⟩
  | move hrun hmove ih => exact hmove.isOpen hopen (ih (hmove.closing_eq_open hopen))

/-- Without a shutdown a worker comes to its end only by leaving a write `Stranded`. -/
theorem Run.alive_or_stranded (h : Run c as p es) (hopen : p.closing = .open) :
    p.Alive ∨ p.Stranded := by
  -- Once a write is stranded it stays so, and until then all workers go on.
  induction h with
  | start => exact .inl fun s => by cases s <;> rfl
  | move hrun hmove ih =>
    have hbefore := hmove.closing_eq_open hopen
    rcases ih hbefore with halive | hstranded
    · exact hmove.alive_or_stranded (hrun.isOpen hbefore) hrun.chronicle halive
    · exact .inr ((hmove.entry hrun.suited).stranded hstranded)

/-! ## Slots and claims -/

/-- A slot that `settle` frees is the reset one. -/
private theorem settle_eq_reset {s : Slot} (huse : s.inUse = true)
    (hfree : s.settle.inUse = false) : s.settle = s.settle.reset := by
  cases hdrained : s.isDrained with
  | true => rw [Slot.settle_of_drained huse hdrained]; rfl
  | false =>
    rw [Slot.settle_of_not_drained hdrained, huse] at hfree
    exact nomatch hfree

/-- The slots keep their number, and a free one tells nothing of its last occupant. -/
structure Blank (c : Config) (p : Pipeline) : Prop where
  size_eq : p.table.slots.size = c.maxRequests
  eq_reset : ∀ id s, p.table.slot? id = some s → s.inUse = false → s = s.reset

/-- Where the slots are the same, the free ones are as `Blank`. -/
private theorem Blank.of_slots_eq (h : p.Blank c) (hslots : p'.table.slots = p.table.slots) :
    p'.Blank c := by
  refine ⟨by rw [hslots]; exact h.size_eq, fun id s hs => ?_⟩
  rw [slot?_of_slots_eq hslots] at hs
  exact h.eq_reset id s hs

/-- Where one slot is replaced, the free ones are `Blank` if that one is, in case it is free. -/
private theorem Blank.replaces {s s' : Slot} (h : p.Blank c)
    (hrep : Table.Replaces p.table p'.table id s s') (hself : s'.inUse = false → s' = s'.reset) :
    p'.Blank c := by
  refine ⟨by rw [hrep.slots_eq, Array.size_setIfInBounds]; exact h.size_eq, fun i u hu hfree => ?_⟩
  by_cases hi : i = id
  · subst hi
    rw [hrep.slot?_self, Option.some.injEq] at hu
    subst hu
    exact hself hfree
  · rw [hrep.slot?_of_ne hi] at hu
    exact h.eq_reset i u hu hfree

/-- An `Entry` keeps free slots `Blank`. A mark, which a table alone would leave on a free slot,
comes to a write in its place only. -/
theorem Entry.blank (hentry : p.Entry a p' es') (hc : p.Chronicle es) (h : p.Blank c) :
    p'.Blank c := by
  cases hentry with
  | idle hes hslots | lose hes hslots | progress hes hslots => exact h.of_slots_eq hslots
  | claim hacquire =>
    obtain ⟨s, -, -, -, hrep⟩ := Table.acquire_granted hacquire
    exact h.replaces hrep nofun
  | issue hop hissue =>
    obtain ⟨s, huse, -, hrep⟩ := Table.recordIssue_ok hissue
    exact h.replaces hrep fun hfree => absurd (huse.symm.trans hfree) nofun
  -- A slot that becomes free has been `reset`.
  | settle hmark hplaces =>
    obtain ⟨s, -, hrep⟩ := Table.markCheckpointDone_ok hmark
    have hfits := hc.fits (hplaces.mem_iff.mpr List.mem_cons_self) hrep.old
    exact h.replaces hrep (settle_eq_reset hfits.inUse)
  | report hreport =>
    rcases Table.recordCompletion_cases hreport with ⟨-, hslots, -⟩ | ⟨s, haccepts, -, -, hrep⟩
    · exact h.of_slots_eq hslots
    · have huse := Slot.inUse_of_accepts haccepts
      exact h.replaces hrep (settle_eq_reset huse)

/-- A free slot of a run holds nothing but a generation (`Blank`). -/
theorem Run.blank (h : Run c as p es) : p.Blank c := by
  induction h with
  | start =>
    refine ⟨Array.size_replicate, fun id s hs _ => ?_⟩
    obtain ⟨hlt, rfl⟩ := Array.getElem?_eq_some_iff.mp hs
    simp [create, Table.create, Slot.reset]
  | move hrun hmove ih => exact (hmove.entry hrun.suited).blank hrun.chronicle ih

/-- The generation of a slot is the number of claims on it, as far as a `UInt64` can count them. -/
theorem Run.generation_eq (h : Run c as p es) (hs : p.table.slot? id = some s) :
    s.generation = UInt64.ofNat (es.countP (Event.acquires id)) := by
  induction h generalizing s with
  | @start es hes =>
    obtain ⟨hlt, rfl⟩ := Array.getElem?_eq_some_iff.mp hs
    rw [countP_acquires_eq_zero id fun e he => slot?_of_isNote (hes e he)]
    simp [create, Table.create]
  | @move as p p' es es' a hrun hmove ih =>
    -- The slot was there before the move.
    obtain ⟨hlt, -⟩ := Array.getElem?_eq_some_iff.mp hs
    rw [(hrun.move hmove).blank.size_eq, ← hrun.blank.size_eq] at hlt
    have hold : p.table.slot? id = some p.table.slots[id] := Array.getElem?_eq_getElem hlt
    obtain ⟨s', hs', hgen⟩ := (hmove.entry hrun.suited).generation_eq hold
    rw [hs, Option.some.injEq] at hs'
    rw [hs', hgen, ih hold, List.countP_append, UInt64.ofNat_add]

/-- A `Move` of an open pipeline that claims a slot admits its write, and one that accepts a write
had it admitted. -/
theorem Move.countP_acquires (hmove : p.Move a es' p') (hopen : p.IsOpen) (id : WriteId) :
    es'.countP (Event.acquires id) + p.admitted.count id =
      (es'.filterMap Event.accepted?).count id + p'.admitted.count id := by
  have hnotes {es : List Event} (hes : ∀ e ∈ es, e.isNote = true) :
      es.countP (Event.acquires id) = 0 ∧ es.filterMap Event.accepted? = [] :=
    ⟨countP_acquires_eq_zero id fun e he => slot?_of_isNote (hes e he),
      List.filterMap_eq_nil_iff.mpr fun e he => accepted?_of_isNote (hes e he)⟩
  cases hmove with
  | note hes | stop hes | advance hes | turn hes =>
    obtain ⟨hclaims, haccepted⟩ := hnotes hes
    rw [hclaims, haccepted]
    rfl
  | @acquire k i t g admitted hacquire hadmitted =>
    rw [hadmitted.count_eq, show [Event.acquired i g].filterMap Event.accepted? = [] from rfl]
    simp [Event.acquires, List.count_cons, Nat.add_comm]
  | @accept k i admitted hfree hadmitted =>
    rw [hadmitted.count_eq]
    simp [Event.acquires, Event.accepted?, List.count_cons, Nat.add_comm]
  | turnAway hes hclosed =>
    -- An open queue turns nobody away.
    rw [hopen.lines] at hclosed
    cases hclosed
  | _ => rfl

/-- Without a shutdown every claim on a slot was that of a write which was accepted or is about to
be (`admitted`). -/
theorem Run.countP_acquires (h : Run c as p es) (hopen : p.closing = .open) (id : WriteId) :
    es.countP (Event.acquires id) =
      (es.filterMap Event.accepted?).count id + p.admitted.count id := by
  induction h with
  | @start es hes =>
    rw [List.filterMap_eq_nil_iff.mpr fun e he => accepted?_of_isNote (hes e he),
      countP_acquires_eq_zero id fun e he => slot?_of_isNote (hes e he)]
    rfl
  | move hrun hmove ih =>
    have hbefore := hmove.closing_eq_open hopen
    have hstep := hmove.countP_acquires (hrun.isOpen hbefore) id
    rw [List.countP_append, List.filterMap_append, List.count_append, ih hbefore]
    omega

/-! ## Nothing in flight -/

/-- With `inFlight` at 0 no write is in a place, and no worker has come to its end. -/
theorem Run.idle (h : Run c as p es) (hopen : p.closing = .open) (hflight : p.table.inFlight = 0) :
    p.places = [] ∧ p.Alive := by
  have hfree := (Table.IsCounted.inFlight_eq_zero_iff h.isCounted).mp hflight
  constructor
  · -- A write in a place would have its slot in use.
    refine List.eq_nil_iff_forall_not_mem.mpr fun place hmem => ?_
    obtain ⟨s, hs, hfits⟩ := h.chronicle.placed place hmem
    exact absurd ((hfree _ s hs).symm.trans hfits.inUse) nofun
  · -- So would a write that a worker left behind.
    refine (h.alive_or_stranded hopen).resolve_right ?_
    rintro ⟨id, s, hs, huse, -⟩
    exact absurd ((hfree id s hs).symm.trans huse) nofun

/-- Where no write is in `places`, no submitter, no queue and no worker has one. -/
theorem parts_of_places (h : p.places = []) :
    p.admitted = [] ∧ ∀ s, p.lines.get s = [] ∧ (p.workers.get s).place? s = none := by
  simp only [places, List.append_eq_nil_iff, List.map_eq_nil_iff, List.flatMap_eq_nil_iff,
    Option.toList_eq_nil_iff] at h
  obtain ⟨⟨hadmitted, hlines⟩, hworkers⟩ := h
  exact ⟨hadmitted, fun s => ⟨hlines s (Stage.mem_all s), hworkers s (Stage.mem_all s)⟩⟩

/-- Where no queue and no worker has a write, none is `underway`. -/
theorem underway_eq_nil (h : ∀ s, p.lines.get s = [] ∧ (p.workers.get s).place? s = none) :
    p.underway = [] := by
  have hthrough (s : Stage) : p.through s [] = [] := by
    have hcarried : (p.workers.get s).carried? = none := by
      have := (h s).2
      cases hphase : p.workers.get s <;> simp_all [Phase.place?, Phase.carried?, Phase.held?]
    simp [through, (h s).1, hcarried]
  rw [underway, hthrough, hthrough, hthrough]

end Pipeline

namespace Journal

variable {c c' : Config} {as as' : List Action} {j j' : Journal} {es es' : List Event}

/-- A worker without a write that has not come to its end has nothing `unprocessed` and nothing
`unpassed`. -/
private theorem counts_of_idle {st : Stage} {phase : Phase} (hplace : phase.awake.place? st = none)
    (halive : phase.awake.isOver = false) :
    phase.isOver = false ∧ phase.unprocessed = 0 ∧ phase.unpassed = 0 := by
  cases phase <;> simp_all [Phase.awake, Phase.place?, Phase.isOver, Phase.unprocessed,
    Phase.unpassed]

/-- What a journal with nothing in flight looks like after the writes of `accepted`. -/
structure Quiescent (j : Journal) (maxRequests : Nat) (accepted : List WriteId) (es : List Event) :
    Prop where
  /-- The client was told of all of them, in order. -/
  notified : es.filterMap Event.notified? = accepted
  /-- Every slot is free and was claimed once for each of its writes. -/
  slots : j.table.table.slots = (Array.range maxRequests).map fun id =>
    { generation := UInt64.ofNat (accepted.count id) }
  /-- Every write went through every queue and every worker. -/
  counters : ∀ s, j.processed s = accepted.length ∧ (j.queue s).pushed = accepted.length ∧
    (j.queue s).popped = accepted.length ∧ (j.queue s).items = []

/-- Without a shutdown a journal with nothing in flight is `Quiescent` after the writes that were
accepted. -/
theorem Run.quiescent (hrun : Run c as j es) (hopen : j.closing = .open)
    (hflight : j.table.table.inFlight = 0) :
    j.Quiescent c.maxRequests (es.filterMap Event.accepted?) es := by
  have hp := hrun.pipeline
  obtain ⟨hplaces, halive⟩ := hp.idle hopen hflight
  obtain ⟨hadmitted, hparts⟩ := Pipeline.parts_of_places hplaces
  have hfree := (Table.IsCounted.inFlight_eq_zero_iff hp.isCounted).mp hflight
  refine ⟨?_, Array.ext ?_ fun id hlt _ => ?_, ?_⟩
  · have hdelivered := hp.delivers.eq_of_alive halive
    rwa [Pipeline.underway_eq_nil hparts, List.append_nil] at hdelivered
  · rw [Array.size_map, Array.size_range]
    exact hp.blank.size_eq
  · -- A free slot is blank, and each claim on it was that of an accepted write.
    have hslot : j.pipeline.table.slot? id = some j.table.table.slots[id] :=
      Array.getElem?_eq_getElem hlt
    have hgen := hp.generation_eq hslot
    rw [hp.countP_acquires hopen, hadmitted, List.count_nil, Nat.add_zero] at hgen
    rw [hp.blank.eq_reset id _ hslot (hfree id _ hslot), Array.getElem_map, Array.getElem_range,
      Slot.reset, hgen]
  · -- From one stage to the next nothing is left behind.
    have htally := hrun.tally
    have hitems (s : Stage) : (j.queue s).items = [] := by
      rw [← lines_pipeline]
      exact (hparts s).1
    have hprocessed (s : Stage) : j.processed s = (j.workers.get s).processed := by
      rw [Journal.processed, isShutDown, hopen]
      rfl
    have hstage (s : Stage) : (j.queue s).pushed = (j.queue s).popped ∧
        (j.queue s).popped = (j.workers.get s).processed ∧
        (j.workers.get s).processed = j.passed es s := by
      have hphase := (hparts s).2
      have hworker := halive s
      rw [workers_pipeline] at hphase hworker
      obtain ⟨hover, hunprocessed, hunpassed⟩ := counts_of_idle hphase hworker
      obtain ⟨hpopped, hpassed⟩ := (htally.workers s).eq_of_alive hover
      rw [hunprocessed] at hpopped
      rw [hunpassed] at hpassed
      have hqueued := htally.queued s
      rw [hitems] at hqueued
      exact ⟨hqueued, hpopped, hpassed⟩
    -- What a stage passed on is what was pushed to the next queue.
    have hpushed (s : Stage) : (j.queue s).pushed = (es.filterMap Event.accepted?).length := by
      have hfirst := htally.accepted
      have h₁ := hstage .metadata
      have h₂ := hstage .commit
      simp only [passed, Stage.next] at h₁ h₂
      cases s <;> omega
    intro s
    obtain ⟨h₁, h₂, -⟩ := hstage s
    rw [hprocessed, ← h₂, ← h₁]
    exact ⟨hpushed s, hpushed s, hpushed s, hitems s⟩

/-- Without a shutdown, a journal with nothing in flight is `Quiescent` after the writes that were
accepted. Hence two runs that accepted the same writes, in whatever interleaving and with their
operations completed in whatever order, by token or by write id, come to the same slots, the same
notifications and the same counters. -/
theorem Run.determined (hrun : Run c as j es) (hopen : j.closing = .open)
    (hflight : j.table.table.inFlight = 0) :
    j.Quiescent c.maxRequests (es.filterMap Event.accepted?) es ∧
    ∀ c' as' j' es', Run c' as' j' es' → j'.closing = .open → j'.table.table.inFlight = 0 →
      c'.maxRequests = c.maxRequests →
      es'.filterMap Event.accepted? = es.filterMap Event.accepted? →
        j'.table.table.slots = j.table.table.slots ∧
        es'.filterMap Event.notified? = es.filterMap Event.notified? ∧
        ∀ s, j'.processed s = j.processed s ∧ (j'.queue s).pushed = (j.queue s).pushed ∧
          (j'.queue s).popped = (j.queue s).popped ∧ (j'.queue s).items = (j.queue s).items := by
  have h := hrun.quiescent hopen hflight
  refine ⟨h, fun c' as' j' es' hrun' hopen' hflight' hslots haccepted => ?_⟩
  have h' := hrun'.quiescent hopen' hflight'
  rw [hslots, haccepted] at h'
  refine ⟨h'.slots.trans h.slots.symm, h'.notified.trans h.notified.symm, fun s => ?_⟩
  obtain ⟨hprocessed, hpushed, hpopped, hitems⟩ := h.counters s
  obtain ⟨hprocessed', hpushed', hpopped', hitems'⟩ := h'.counters s
  exact ⟨hprocessed'.trans hprocessed.symm, hpushed'.trans hpushed.symm,
    hpopped'.trans hpopped.symm, hitems'.trans hitems.symm⟩

/-- Two writes go through one after the other, with tokens, or at once, with the last operations of
the second reported by write id. -/
theorem determined_of_two_schedules :
    ∃ j es as' j' es', Run { bufferSize := 2, maxRequests := 2 }
        (submission 0 0 ++ Stage.all.flatMap (passage 0 1) ++ submission 1 1 ++
          Stage.all.flatMap (passage 1 1)) j es ∧
      Run { bufferSize := 2, maxRequests := 2 } as' j' es' ∧
      .reported 1 .writeInode none (.accepted true false false) ∈ es' ∧
      es.filterMap Event.accepted? = [0, 1] ∧ j.Quiescent 2 [0, 1] es ∧
      j'.table.table.slots = j.table.table.slots ∧
      es'.filterMap Event.notified? = es.filterMap Event.notified? ∧
      ∀ s, j'.processed s = j.processed s ∧ (j'.queue s).pushed = (j.queue s).pushed ∧
        (j'.queue s).popped = (j.queue s).popped ∧ (j'.queue s).items = (j.queue s).items := by
  have htrace : (trace? { bufferSize := 2, maxRequests := 2 }
      (submission 0 0 ++ Stage.all.flatMap (passage 0 1) ++ submission 1 1 ++
        Stage.all.flatMap (passage 1 1))).map (fun r =>
          ((r.1.closing, r.1.table.table.inFlight), r.2.filterMap Event.accepted?)) =
      some ((.open, 0), [0, 1]) := by decide +kernel
  have htrace' : (trace? { bufferSize := 2, maxRequests := 2 }
      (submission 0 0 ++ passage 0 1 .metadata ++ submission 1 1 ++ passage 1 1 .metadata ++
        passage 0 1 .commit ++ passage 0 1 .checkpoint ++ passage 1 1 .commit ++
          (passage 1 1 .checkpoint).map fun
            | .complete t => .report t.writeId t.operation
            | a => a)).map (fun r =>
          ((r.1.closing, r.1.table.table.inFlight), r.2.filterMap Event.accepted?,
            r.2.contains (.reported 1 .writeInode none (.accepted true false false)))) =
      some ((.open, 0), [0, 1], true) := by decide +kernel
  obtain ⟨⟨j, es⟩, hrun, heq⟩ := Option.map_eq_some_iff.mp htrace
  obtain ⟨⟨j', es'⟩, hrun', heq'⟩ := Option.map_eq_some_iff.mp htrace'
  simp only [Prod.mk.injEq, List.contains_iff_mem] at heq heq'
  obtain ⟨⟨hopen, hflight⟩, haccepted⟩ := heq
  obtain ⟨⟨hopen', hflight'⟩, haccepted', hreported⟩ := heq'
  have hrun := Run.of_trace? hrun
  have hrun' := Run.of_trace? hrun'
  obtain ⟨hquiescent, hsame⟩ := Run.determined hrun hopen hflight
  rw [haccepted] at hquiescent
  exact ⟨j, es, _, j', es', hrun, hrun', hreported, haccepted, hquiescent,
    hsame _ _ j' es' hrun' hopen' hflight' rfl (haccepted'.trans haccepted.symm)⟩

end Journal

end WriteAhead
