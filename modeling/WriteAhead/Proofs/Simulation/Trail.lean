import WriteAhead.Proofs.Journal.Turns
import WriteAhead.Proofs.Simulation.Reflection
import WriteAhead.Proofs.Simulation.Run

/-!
# The log of a device orders the operations of every write

The requests of a write go through the stages one after the other, and what the device notes for the
write is their traversals, one after the other. The last one reflects what has become of the request
so far; when the checkpoint stage is done with the request, the traversal is whole.

## Key results

- `Run.trail`: the notes for a write are whole traversals and the one on its way
- `Run.traversals`: they come to one for each request, and the client is told of whole ones
-/

namespace WriteAhead

/-- The notes of a device for one write. -/
def Device.notesOf (d : Device) (id : WriteId) : List IoEvent :=
  d.events.filter (·.writeId = id)

theorem Device.notesOf_of_notes_eq {d d' : Device} (id : WriteId) (h : d'.notes = d.notes) :
    d'.notesOf id = d.notesOf id := by
  rw [notesOf, events, h, notesOf, events]

/-- One more of the `notes` is one for its own write. -/
theorem Device.notesOf_of_notes_cons {d d' : Device} {e : IoEvent} (id : WriteId)
    (h : d'.notes = e :: d.notes) :
    d'.notesOf id = d.notesOf id ++ if e.writeId = id then [e] else [] := by
  rw [notesOf, events, h, List.reverse_cons, List.filter_append, notesOf, events]
  simp [List.filter_cons]

/-- A worker that hands a token over had it at the place of its write (`token?`). -/
theorem Pipeline.Move.hands {p p' : Pipeline} {st : Stage} {t : Token}
    (hmove : p.Move (.act (.worker st)) [.handed st t] p')
    (hsuits : ∀ s, Suits s (p.workers.get s)) :
    t.operation.stage = st ∧ p'.table = p.table ∧ ∃ left rest,
      p.places.Perm (⟨t.writeId, left, st.index, some t⟩ :: rest) ∧
        p'.places.Perm (⟨t.writeId, left, st.index, none⟩ :: rest) := by
  cases hmove with
  | note hes | stop hes | advance hes | turn hes => exact nomatch hes _ List.mem_cons_self
  | @hand _ _ left hphase =>
    have hs := hsuits st
    rw [hphase] at hs
    obtain ⟨rest, hplaces, hplaces'⟩ := places_setPhase_some
      (p := { p with outstanding := p.outstanding ++ [t] }) (s := st)
      (.issuing t.writeId left) (by rw [hphase]; rfl) rfl
    exact ⟨hs.1, rfl, left ++ st.after, rest, hplaces, hplaces'⟩

namespace Simulation

variable {id : WriteId} {p p' : Pipeline} {es es' : List WriteAhead.Event} {d d' : Device}
  {log : List IoEvent} {a : Journal.Action} {t : Token}

/-! ## The whole log -/

/-- The notes for a write are whole traversals, one for each mark, and the one that is on its
way. -/
structure Trail (id : WriteId) (p : Pipeline) (es : List WriteAhead.Event) (d : Device)
    (done : List (List IoEvent)) (log : List IoEvent) : Prop extends Reflects id p es d log where
  notes_eq : d.notesOf id = done.flatten ++ log
  whole : ∀ log ∈ done, Traversal.Whole id log
  marked : done.length = es.countP (Event.marks id)

variable {done : List (List IoEvent)}

/-- What is noted for the write goes on with the traversal on its way, `log`. -/
private theorem Trail.grow {more : List IoEvent} (h : Trail id p es d done log)
    (hreflects : Reflects id p' (es ++ es') d' (log ++ more))
    (hnotes : d'.notesOf id = d.notesOf id ++ more) (hmarks : es'.countP (Event.marks id) = 0) :
    Trail id p' (es ++ es') d' done (log ++ more) := by
  refine ⟨hreflects, ?_, h.whole, ?_⟩
  · rw [hnotes, h.notes_eq, List.append_assoc]
  · rw [List.countP_append, hmarks]
    exact h.marked

/-- Where nothing is noted and nothing is marked, the `Trail` of a write is the same. -/
private theorem Trail.same (h : Trail id p es d done log)
    (hreflects : Reflects id p' (es ++ es') d' log) (hnotes : d'.notesOf id = d.notesOf id)
    (hmarks : es'.countP (Event.marks id) = 0) : Trail id p' (es ++ es') d' done log := by
  rw [← List.append_nil log] at hreflects ⊢
  exact h.grow hreflects (hnotes.trans (List.append_nil _).symm) hmarks

/-- What is about other writes changes nothing on the `Trail` of a write. -/
private theorem Trail.frame (h : Trail id p es d done log) (hes : ∀ e ∈ es', e.slot? ≠ some id)
    (hslot : p'.table.slot? id = p.table.slot? id)
    (hplaces : ∀ place ∈ p'.places, place.id = id →
      ∃ old ∈ p.places, old.id = id ∧ old.token? = place.token?)
    (hnotes : d'.notesOf id = d.notesOf id)
    (htokens : ∀ t ∈ d'.tokens, t.writeId = id → t ∈ d.tokens)
    (hnoted : ∀ t, t.writeId = id → (t ∈ d'.noted ↔ t ∈ d.noted)) :
    Trail id p' (es ++ es') d' done log :=
  h.same (h.toReflects.frame hes hslot hplaces htokens hnoted) hnotes (countP_marks_eq_zero hes)

/-- A place that is left without a `token?` had none if the device has got none. -/
private theorem token?_eq_none {place place' : Place} {rest : List Place}
    (houtstanding : p'.outstanding.Perm p.outstanding) (htokens : p'.tokens.Perm p.tokens)
    (hplaces : p.places.Perm (place :: rest)) (hplaces' : p'.places.Perm (place' :: rest))
    (hnone : place'.token? = none) : place.token? = none := by
  have hperm := (List.perm_append_left_iff _).mp
    ((houtstanding.symm.append_right _).trans htokens)
  have hlength := ((hplaces'.filterMap Place.token?).symm.trans
    (hperm.trans (hplaces.filterMap Place.token?))).length_eq
  by_contra hsome
  obtain ⟨t, ht⟩ := Option.ne_none_iff_exists'.mp hsome
  rw [List.filterMap_cons_none hnone, List.filterMap_cons_some ht, List.length_cons] at hlength
  omega

/-- While the device stays as it is, the journal goes on without a report: one case for each kind of
`Entry`. -/
private theorem Trail.entry (h : Trail id p es d done log) (hentry : p.Entry a p' es')
    (hc : p.Chronicle es) (hl : p.Ledger es) (hheld : ∀ t ∈ d.tokens, t ∈ p.tokens)
    (houtstanding : p'.outstanding.Perm p.outstanding) (hcompletes : ∀ t, a ≠ .complete t)
    (hreports : ∀ id op, a ≠ .report id op) :
    ∃ done' log', Trail id p' (es ++ es') d done' log' := by
  -- Entries about another slot, or none, leave the trail of `id` as it is.
  have hquiet (hes : ∀ e ∈ es', e.slot? = none) (hslots : p'.table.slots = p.table.slots)
      (hplaces : ∀ place ∈ p'.places, place.id = id →
        ∃ old ∈ p.places, old.id = id ∧ old.token? = place.token?) :
      ∃ done' log', Trail id p' (es ++ es') d done' log' :=
    ⟨done, log, h.frame (fun e he => by rw [hes e he]; exact nofun)
      (Pipeline.slot?_of_slots_eq hslots id) hplaces rfl (fun _ hmem _ => hmem) fun _ _ => Iff.rfl⟩
  have hforeign {i : WriteId} {s s' : Slot} (hrep : Table.Replaces p.table p'.table i s s')
      (hi : id ≠ i) (hes : ∀ e ∈ es', e.slot? = some i)
      (hplaces : ∀ place ∈ p'.places, place.id = id → place ∈ p.places) :
      ∃ done' log', Trail id p' (es ++ es') d done' log' :=
    ⟨done, log, h.frame (fun e he heq => hi (Option.some.inj ((hes e he).symm.trans heq)).symm)
      (hrep.slot?_of_ne hi) (fun place hmem hid => ⟨place, hplaces place hmem hid, hid, rfl⟩) rfl
      (fun _ hmem _ => hmem) fun _ _ => Iff.rfl⟩
  cases hentry with
  | idle hes hslots hplaces =>
    exact hquiet hes hslots fun place hmem hid => ⟨place, hplaces.mem_iff.mp hmem, hid, rfl⟩
  | lose hes hslots hplaces =>
    exact hquiet hes hslots fun place hmem hid =>
      ⟨place, hplaces.mem_iff.mpr (List.mem_append_right _ hmem), hid, rfl⟩
  | @claim i g hacquire hplaces =>
    by_cases hi : id = i
    · subst hi
      exact ⟨done, log, h.same (h.toReflects.claim hc hl hheld hacquire hplaces) rfl rfl⟩
    · obtain ⟨s, -, -, -, hrep⟩ := Table.acquire_granted hacquire
      refine hforeign hrep hi (by simp [Event.slot?]) fun place hmem hid => ?_
      rcases List.mem_cons.mp (hplaces.mem_iff.mp hmem) with rfl | hmem
      · exact absurd hid.symm hi
      · exact hmem
  | @issue st i op left g rest hop hissue hplaces hplaces' =>
    by_cases hi : id = i
    · subst hi
      exact ⟨done, log, h.same (h.toReflects.record hc hissue hplaces hplaces') rfl rfl⟩
    · obtain ⟨s, -, -, hrep⟩ := Table.recordIssue_ok hissue
      refine hforeign hrep hi (by simp [Event.slot?]) fun place hmem hid => ?_
      rcases List.mem_cons.mp (hplaces'.mem_iff.mp hmem) with rfl | hmem
      · exact absurd hid.symm hi
      · exact hplaces.mem_iff.mpr (List.mem_cons_of_mem _ hmem)
  | @progress es' place passed rest hes hslots hplaces hplaces' hpassed htokens =>
    have htoken := token?_eq_none houtstanding htokens hplaces hplaces' rfl
    refine hquiet hes hslots fun place' hmem hid => ?_
    rcases List.mem_cons.mp (hplaces'.mem_iff.mp hmem) with rfl | hmem
    · exact ⟨place, hplaces.mem_iff.mpr List.mem_cons_self, hid, htoken⟩
    · exact ⟨place', hplaces.mem_iff.mpr (List.mem_cons_of_mem _ hmem), hid, rfl⟩
  | @settle i released hmark hplaces =>
    by_cases hi : id = i
    · subst hi
      obtain ⟨hwhole, hreflects⟩ := h.toReflects.settle hc hl hheld hmark hplaces
      -- The mark ends the traversal: the log becomes whole and a new one begins.
      refine ⟨done ++ [log], [], hreflects, ?_, fun log' hmem => ?_, ?_⟩
      · rw [h.notes_eq, List.flatten_append, List.flatten_singleton, List.append_nil]
      · rcases List.mem_append.mp hmem with hmem | hmem
        · exact h.whole log' hmem
        · exact List.mem_singleton.mp hmem ▸ hwhole
      · rw [List.length_append, h.marked, List.countP_append]
        simp [Event.marks]
    · obtain ⟨s, -, hrep⟩ := Table.markCheckpointDone_ok hmark
      exact hforeign hrep hi (by simp [Event.slot?]) fun place hmem _ =>
        hplaces.mem_iff.mpr (List.mem_cons_of_mem _ hmem)
  | report hreport hplaces htokens =>
    rcases htokens with ⟨rfl, -⟩ | ⟨t, rfl, -⟩
    · exact absurd rfl (hreports _ _)
    · exact absurd rfl (hcompletes _)

/-- A worker issues a token to the device, which notes it at the end of the `Trail`. -/
private theorem Trail.issue {st : Stage} (h : Trail id p es d done log) (hc : p.Chronicle es)
    (hmove : p.Move (.act (.worker st)) [.handed st t] p')
    (hsuits : ∀ s, Pipeline.Suits s (p.workers.get s)) (hdevice : d' = d.issue (.worker st) t) :
    ∃ log', Trail id p' (es ++ [.handed st t]) d' done log' := by
  obtain ⟨hst, htable, left, rest, hplaces, hplaces'⟩ := hmove.hands hsuits
  have hnotes : d'.notes = ⟨.issued, t.writeId, t.operation⟩ :: d.notes := hdevice ▸ rfl
  have htokens : d'.tokens.Perm (t :: d.tokens) := hdevice ▸ d.tokens_issue _ t
  have hnoted : d'.noted = d.noted := hdevice ▸ d.noted_issue _ t
  have hlog := Device.notesOf_of_notes_cons id hnotes
  by_cases hid : t.writeId = id
  · subst hid
    rw [if_pos rfl] at hlog
    have hreflects := h.toReflects.issue hc hst htable hplaces hplaces' htokens hnoted
    exact ⟨_, h.grow hreflects hlog rfl⟩
  · rw [if_neg hid, List.append_nil] at hlog
    -- The token of another write changes neither the log of `id` nor what is in the device for it.
    refine ⟨log, h.frame (by simp [Event.slot?]) (by rw [htable])
      (fun place hmem hid' => ⟨place, ?_, hid', rfl⟩) hlog (fun u hmem hu => ?_)
      fun u _ => by rw [hnoted]⟩
    · rcases List.mem_cons.mp (hplaces'.mem_iff.mp hmem) with rfl | hmem
      · exact absurd hid' hid
      · exact hplaces.mem_iff.mpr (List.mem_cons_of_mem _ hmem)
    · rcases List.mem_cons.mp (htokens.mem_iff.mp hmem) with rfl | hmem
      · exact absurd hu hid
      · exact hmem

/-- A thread inside the device goes on (`Turn`) and gives nothing back. It may note one
completion. -/
private theorem Trail.turn {noted? : Option Token} (h : Trail id p es d done log)
    (hc : p.Chronicle es) (hl : p.Ledger es) (hheld : ∀ t ∈ d.tokens, t ∈ p.tokens)
    (hnodup : d.tokens.Nodup) (hturn : d.Turn d' noted? none) :
    ∃ log', Trail id p es d' done log' := by
  have hsame (hnotes : d'.notesOf id = d.notesOf id) (htokens : d'.tokens.Perm d.tokens)
      (hnoted : ∀ t, t.writeId = id → (t ∈ d'.noted ↔ t ∈ d.noted)) :
      ∃ log', Trail id p es d' done log' := by
    have hframe : Trail id p (es ++ []) d' done log := h.frame nofun rfl
      (fun place hmem hid => ⟨place, hmem, hid, rfl⟩) hnotes
      (fun _ hmem _ => htokens.mem_iff.mp hmem) hnoted
    rw [List.append_nil] at hframe
    exact ⟨log, hframe⟩
  cases hturn with
  | keeps hnotes htokens hnoted =>
    exact hsame (Device.notesOf_of_notes_eq id hnotes) htokens fun _ _ => hnoted.mem_iff
  | @notes t hnotes htokens hnoted =>
    have hlog := Device.notesOf_of_notes_cons id hnotes
    by_cases hid : t.writeId = id
    · subst hid
      rw [if_pos rfl] at hlog
      -- Tokens are there once each, so one that is noted now was not noted before.
      have hmem := Device.mem_tokens_of_noted (hnoted.mem_iff.mpr List.mem_cons_self)
      have hnew : t ∉ d.noted := by
        have hle := Nat.le_trans (d'.count_noted_le t)
          (List.nodup_iff_count_le_one.mp (htokens.nodup_iff.mpr hnodup) t)
        rw [hnoted.count_eq, List.count_cons_self] at hle
        exact List.count_eq_zero.mp (by omega)
      have hreflects := h.toReflects.note hc hl hheld (htokens.mem_iff.mp hmem) hnew htokens hnoted
      rw [← List.append_nil es] at hreflects
      have hgrown := h.grow hreflects hlog rfl
      rw [List.append_nil] at hgrown
      exact ⟨_, hgrown⟩
    · rw [if_neg hid, List.append_nil] at hlog
      refine hsame hlog htokens fun u hu => ?_
      rw [hnoted.mem_iff, List.mem_cons]
      refine or_iff_right ?_
      rintro rfl
      exact hid hu

/-- The device gives a token back (`Turn`), which notes nothing. -/
private theorem Trail.give {v : Table.Verdict} (h : Trail id p es d done log)
    (hentry : p.Entry (.complete t) p' [.reported t.writeId t.operation (some t.generation) v])
    (hc : p.Chronicle es) (hl : p.Ledger es) (hheld : ∀ t ∈ d.tokens, t ∈ p.tokens)
    (hturn : d.Turn d' none (some t)) :
    Trail id p' (es ++ [.reported t.writeId t.operation (some t.generation) v]) d' done log := by
  obtain ⟨hnotes, htokens, hnoted⟩ : d'.notes = d.notes ∧ d.tokens.Perm (t :: d'.tokens) ∧
      d.noted.Perm (t :: d'.noted) := by
    cases hturn
    exact ⟨‹_›, ‹_›, ‹_›⟩
  have hlog := Device.notesOf_of_notes_eq id hnotes
  have hmem : t ∈ p.tokens := hheld t (htokens.mem_iff.mpr List.mem_cons_self)
  cases hentry with
  | idle hes | lose hes | progress hes => exact nomatch hes _ List.mem_cons_self
  | report hreport hplaces =>
    by_cases hid : t.writeId = id
    · subst hid
      have hreflects := h.toReflects.give hc hl hmem hreport hplaces htokens hnoted
      exact h.same hreflects hlog rfl
    · obtain ⟨s, -, -, hrep⟩ := hl.completed hc hreport hmem
      refine h.frame (by simpa [Event.slot?] using hid) (hrep.slot?_of_ne (Ne.symm hid))
        (fun place hmem hid => ⟨place, hplaces.mem_iff.mp hmem, hid, rfl⟩) hlog
        (fun u hmem _ => htokens.mem_iff.mpr (List.mem_cons_of_mem _ hmem)) fun u hu => ?_
      rw [hnoted.mem_iff, List.mem_cons]
      refine (or_iff_right ?_).symm
      rintro rfl
      exact hid hu

variable {s s' : Simulation} {acts acts' : List Journal.Action} {c : Config}

/-- Every `Motion` keeps the `Trail` of a write. -/
private theorem Trail.motion (h : Trail id s.journal.pipeline es s.device done log)
    (hmotion : Motion s s' acts' es') (hrun : Journal.Run c acts s.journal es)
    (hacts : ∀ id op, .report id op ∉ acts ++ acts') (hwired : s.Wired) (hwired' : s'.Wired) :
    ∃ done' log', Trail id s'.journal.pipeline (es ++ es') s'.device done' log' := by
  have hc := hrun.pipeline.chronicle
  have hl := hrun.pipeline.ledger fun i op hmem => hacts i op (List.mem_append_left _ hmem)
  have hsuits := hrun.pipeline.suited
  have hheld : ∀ t ∈ s.device.tokens, t ∈ s.journal.pipeline.tokens := fun t hmem =>
    List.mem_append_left _ (hwired.mem_tokens.mp hmem)
  -- A motion is a step of the journal, of the device, or of both with one token between them.
  cases hmotion with
  | journal hstep hdevice hcompletes =>
    have houtstanding := hwired'.tokens.symm.trans (hdevice ▸ hwired.tokens)
    rw [hdevice]
    refine h.entry ((hrun.move hstep).entry hsuits) hc hl hheld houtstanding hcompletes ?_
    rintro i op rfl
    exact hacts i op (List.mem_append_right _ List.mem_cons_self)
  | hand hstep hdevice => exact ⟨done, h.issue hc (hrun.move hstep) hsuits hdevice⟩
  | turn hjournal hturn =>
    have hnodup := hwired.tokens.nodup_iff.mpr (List.nodup_append.mp hl.nodup).1
    rw [hjournal, List.append_nil]
    exact ⟨done, h.turn hc hl hheld hnodup hturn⟩
  | give hstep hturn =>
    exact ⟨done, log, h.give ((hrun.move hstep).entry hsuits) hc hl hheld hturn⟩

variable {setup : Setup} {as : List Action} {events : List Event}

/-- The notes for a write are whole traversals and the one on its way (`Trail`), along every run. -/
theorem Run.trail (h : Run setup as s events) (has : ∀ id op, .journal (.report id op) ∉ as)
    (id : WriteId) :
    ∃ done log, Trail id s.journal.pipeline (journalEvents events) s.device done log := by
  induction h with
  | start hstart =>
    obtain ⟨-, -, rfl, rfl⟩ := Journal.start_eq_ok hstart
    have hnone := Device.tokens_create setup.latency setup.delays setup.holds
    refine ⟨[], [], ⟨.nil id, nofun, List.nil_prefix, nofun, ?_, fun i hi huse => ?_⟩, rfl, nofun,
      ?_⟩
    · rw [hnone]
      exact nofun
    · rw [Table.inUse_of_create _ hi] at huse
      exact nomatch huse
    · rw [journalEvents_map_journal]
      rfl
  | @step as s s' es es' a hrun hstep ih =>
    have hold := fun i op hmem => has i op (List.mem_append_left _ hmem)
    obtain ⟨hwired, acts, hjournal, hacts⟩ := hrun.journal hold
    obtain ⟨hwired', acts', hmotion, hown⟩ := motion_of_step hjournal hwired hstep
    obtain ⟨done, log, h⟩ := ih hold
    rw [journalEvents_append]
    refine h.motion hmotion hjournal (fun i op hmem => ?_) hwired hwired'
    rcases List.mem_append.mp hmem with hmem | hmem
    · exact hacts i op hmem
    · rcases hown _ hmem with rfl | ⟨t, heq⟩
      · exact has i op (List.mem_append_right _ List.mem_cons_self)
      · cases heq

/-! ## Requests and notifications -/

/-- The notes for a write are traversals, one after the other. The client was told of the first
`told` of them, which are whole, and there is one more at most. -/
structure Serial (id : WriteId) (notes : List IoEvent) (told : Nat)
    (traversals : List (List IoEvent)) : Prop where
  notes_eq : notes = traversals.flatten
  traversal : ∀ log ∈ traversals, Traversal id log
  whole : ∀ log ∈ traversals.dropLast, Traversal.Whole id log
  told_le : told ≤ traversals.length
  length_le : traversals.length ≤ told + 1
  told_whole : ∀ log ∈ traversals.take told, Traversal.Whole id log

/-- The traversals are `Serial` if the client was told of all and each is whole. -/
private theorem Serial.of_told (hwhole : ∀ log ∈ done, Traversal.Whole id log) :
    Serial id done.flatten done.length done :=
  ⟨rfl, fun log hmem => (hwhole log hmem).toTraversal,
    fun log hmem => hwhole log (List.dropLast_subset _ hmem), Nat.le_refl _, Nat.le_succ _,
    fun log hmem => hwhole log (List.mem_of_mem_take hmem)⟩

/-- The traversals are `Serial` with a last one on its way, if that one is whole where the client
was told of it. -/
private theorem Serial.of_last {told : Nat} (hwhole : ∀ log ∈ done, Traversal.Whole id log)
    (hlast : Traversal id log) (hle : done.length ≤ told) (htold : told ≤ done.length + 1)
    (hlast' : done.length < told → Traversal.Whole id log) :
    Serial id (done.flatten ++ log) told (done ++ [log]) := by
  refine ⟨by simp, fun log' hmem => ?_, fun log' hmem => ?_, by simpa using htold,
    by simpa using hle, fun log' hmem => ?_⟩
  · rcases List.mem_append.mp hmem with hmem | hmem
    · exact (hwhole log' hmem).toTraversal
    · exact List.mem_singleton.mp hmem ▸ hlast
  · rw [List.dropLast_concat] at hmem
    exact hwhole log' hmem
  · rcases Nat.lt_or_ge done.length told with hlt | hge
    · rcases List.mem_append.mp (List.mem_of_mem_take hmem) with hmem | hmem
      · exact hwhole log' hmem
      · exact List.mem_singleton.mp hmem ▸ hlast' hlt
    · rw [List.take_append_of_le_length hge] at hmem
      exact hwhole log' (List.mem_of_mem_take hmem)

variable {es : List WriteAhead.Event} {acts : List Journal.Action}

/-- The client is told of a write once its traversal is `Whole`. -/
private theorem Trail.whole_of_told (h : Trail id p es d done log) (hrun : Pipeline.Run c acts p es)
    (htold : es.countP (Event.marks id) < (es.filterMap Event.notified?).count id) :
    Traversal.Whole id log := by
  obtain ⟨s, hs, huse, hfull⟩ := hrun.full_of_told htold
  refine h.traversal.whole fun op => (h.completed s hs huse op).mpr (.inl ?_)
  rw [hfull, OpSet.contains_full]

/-- Nothing is in the `log` of a request that waits in the first queue. -/
private theorem Trail.eq_nil_of_line (h : Trail id p es d done log) (hc : p.Chronicle es)
    (hmem : id ∈ p.lines.get .metadata) : log = [] := by
  obtain ⟨s, -, hfits⟩ := hc.placed _ (Pipeline.mem_places_of_line hmem)
  have hleft : issues id (since id es) ++ Operation.all = Operation.all := hfits.issues_left
  have hnone := List.append_left_eq_self.mp hleft
  exact h.traversal.eq_nil (List.prefix_nil.mp (hnone ▸ h.recorded))

/-- Nothing is in the `log` while every accepted request is marked. -/
private theorem Trail.eq_nil_of_marked (h : Trail id p es d done log) (hturns : p.Turns es id)
    (hmarked : (es.filterMap Event.accepted?).count id ≤ es.countP (Event.marks id)) :
    log = [] := by
  by_contra hlog
  obtain ⟨s, hs, huse, hunmarked⟩ := h.occupied hlog
  have hbegun := hturns.begun s hs huse hunmarked fun hnone =>
    hlog (h.traversal.eq_nil (List.prefix_nil.mp (hnone ▸ h.recorded)))
  omega

/-- There is one traversal for each request that the first worker has taken from its queue, and they
are `Serial`. -/
private theorem Trail.serial (h : Trail id p es d done log) (hrun : Pipeline.Run c acts p es) :
    ∃ traversals, Serial id (d.notesOf id) ((es.filterMap Event.notified?).count id) traversals ∧
      traversals.length + (p.lines.get .metadata).count id =
        (es.filterMap Event.accepted?).count id := by
  have hturns := hrun.turns id
  have hc := hrun.chronicle
  have htold := hturns.told
  have hone := hturns.accepted_le
  have hnotified := hrun.delivers.notified_le id
  have hmarked := h.marked
  rw [h.notes_eq]
  -- No request is on its way, or it is the last.
  have hidle (hlog : log = []) : Serial id (done.flatten ++ log)
      ((es.filterMap Event.notified?).count id) done := by
    have hle : (es.filterMap Event.notified?).count id ≤ es.countP (Event.marks id) := by
      by_contra hlt
      have hwhole := h.whole_of_told hrun (by omega)
      exact List.not_mem_nil (hlog ▸ hwhole.completed .writeData)
    rw [hlog, List.append_nil, Nat.le_antisymm hle htold, ← hmarked]
    exact .of_told h.whole
  by_cases hline : id ∈ p.lines.get .metadata
  · refine ⟨done, hidle (h.eq_nil_of_line hc hline), ?_⟩
    rw [List.count_eq_one_of_mem (hc.nodup_line _) hline,
      hturns.accepted_eq (hc.not_mem_admitted_of_line hline), hmarked]
  · rw [List.count_eq_zero.mpr hline]
    rcases Nat.lt_or_ge (es.countP (Event.marks id)) ((es.filterMap Event.accepted?).count id)
      with hlt | hge
    · refine ⟨done ++ [log], ?_, by rw [List.length_append, List.length_singleton]; omega⟩
      exact .of_last h.whole h.traversal (by omega) (by omega) fun hlt =>
        h.whole_of_told hrun (by omega)
    · exact ⟨done, hidle (h.eq_nil_of_marked hturns hge), by omega⟩

/-- In every run of a journal on a simulated device in which completions come only through its
tokens, whatever the latency, the delays and the holds, what the device notes for a write is one
traversal of the stages after the other (`Serial`). There is one for each accepted request of the
write that is not in the first queue any more, and all but the last are whole. Each of those of
which the client was told is whole, and the next one begins only after it was. -/
theorem Run.traversals (h : Run setup as s events) (has : ∀ id op, .journal (.report id op) ∉ as)
    (id : WriteId) :
    ∃ traversals, Serial id (s.device.notesOf id)
        (((journalEvents events).filterMap Event.notified?).count id) traversals ∧
      traversals.length + (s.journal.queue .metadata).items.count id =
        ((journalEvents events).filterMap Event.accepted?).count id := by
  obtain ⟨-, acts, hjournal, -⟩ := h.journal has
  obtain ⟨done, log, htrail⟩ := h.trail has id
  have hserial := htrail.serial hjournal.pipeline
  rwa [Journal.lines_pipeline] at hserial

/-- A worker issues an operation and goes `n` steps inside the device. -/
def issuing (st : Stage) (n : Nat) : List Action :=
  List.replicate 2 (.journal (.act (.worker st))) ++ List.replicate n (.device (.worker st))

/-- The device of two requests of one write: one operation is slow, and one is held. -/
def slowAndHeld : Setup where
  config := { bufferSize := 1, maxRequests := 1 }
  delays := [(.journalTxb, ⟨7⟩)]
  holds := [(.journalBitmap, 0)]

/-- The first request goes through all stages, and the second one is at its first operation. -/
def twoRequests : List Action :=
  let visit (st : Stage) (n : Nat) := List.replicate n (.journal (.act (.worker st)))
  let passage (st : Stage) :=
    visit st 2 ++ st.operations.flatMap (fun _ => issuing st 4) ++ visit st 3
  (Journal.submission 0 0).map .journal ++ visit .metadata 2 ++ issuing .metadata 4 ++
    issuing .metadata 3 ++ issuing .metadata 2 ++ issuing .metadata 4 ++
      [.release 0] ++ List.replicate 4 (.device (.operator 0)) ++
        [.pass 7000000, .fire, .device .timer, .device .timer] ++ visit .metadata 3 ++
          passage .commit ++ passage .checkpoint ++
            (Journal.submission 1 0).map .journal ++ visit .metadata 2 ++ issuing .metadata 1

/-- In `twoRequests` the operations of the first stage are completed in another order than they were
issued. -/
theorem traversals_of_two_requests :
    ∃ s events traversals, Run slowAndHeld twoRequests s events ∧
      (∀ id op, .journal (.report id op) ∉ twoRequests) ∧
      Serial 0 (s.device.notesOf 0) 1 traversals ∧ traversals.length = 2 ∧
      (s.device.notesOf 0).filterMap IoEvent.completed? =
        [.writeData, .journalInode, .journalBitmap, .journalTxb, .journalTxe, .writeBitmap,
          .writeInode] := by
  have hrun : (trace? slowAndHeld twoRequests).map (fun r =>
      ((r.1.device.notesOf 0).filterMap IoEvent.completed?,
        ((journalEvents r.2).filterMap Event.notified?).count 0,
        ((journalEvents r.2).filterMap Event.accepted?).count 0,
        (r.1.journal.queue .metadata).items.count 0)) =
      some ([.writeData, .journalInode, .journalBitmap, .journalTxb, .journalTxe, .writeBitmap,
        .writeInode], 1, 2, 0) := by decide +kernel
  obtain ⟨⟨s, events⟩, htrace, heq⟩ := Option.map_eq_some_iff.mp hrun
  simp only [Prod.mk.injEq] at heq
  obtain ⟨hcompleted, hnotified, haccepted, hline⟩ := heq
  have hreports : ∀ id op, .journal (.report id op) ∉ twoRequests := by
    simp [twoRequests, issuing, Journal.submission, Stage.operations, Operation.all]
  obtain ⟨traversals, hserial, hlength⟩ :=
    Run.traversals (Run.of_trace? htrace) hreports 0
  rw [hnotified] at hserial
  rw [hline, haccepted] at hlength
  exact ⟨s, events, traversals, .of_trace? htrace, hreports, hserial, hlength, hcompleted⟩

end Simulation

end WriteAhead
