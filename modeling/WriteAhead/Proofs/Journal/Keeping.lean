import WriteAhead.Proofs.Journal.Delivery
import WriteAhead.Proofs.Journal.Release
import WriteAhead.Proofs.Journal.Tokens

/-!
# A pipeline that loses only what the device drops

Without a shutdown and without a panic nothing is lost but the tokens that the device drops: every
worker goes on, every write that occupies a slot has a place from which it goes on, and every
operation on record that is not noted as complete has a token with which it can be, or had one that
was dropped. With reports by write id this fails, since such a report can leave a slot occupied for
ever.

## Key results

- `not_disturbed`: an open pipeline is disturbed by mishaps only
- `Entry.kept`, `Move.alive`: a move that does not disturb loses nothing
- `Run.keeps`: without a shutdown and without a panic only tokens that are dropped are lost
-/

namespace WriteAhead.Pipeline

variable {p p' : Pipeline} {a : Journal.Action} {es es' : List Event} {id : WriteId} {s s' : Slot}

/-! ## Open pipelines -/

/-- Whether no queue is closed and the table is not shut down. -/
structure IsOpen (p : Pipeline) : Prop where
  lines : ∀ s, p.closed.get s = false
  table : p.table.isShutDown = false

/-- A shutdown is never taken back: where `closing` is open after a move it was open before. -/
theorem Move.closing_eq_open (hmove : p.Move a es p') (h : p'.closing = .open) :
    p.closing = .open := by
  cases hmove with
  | close _ hnot => exact absurd h hnot
  | abort => exact nomatch h
  | turn _ hnot => exact absurd h hnot
  | _ => exact h

/-- Only a shutdown closes a pipeline: a `Move` without one leaves it `IsOpen`. -/
theorem Move.isOpen (hmove : p.Move a es p') (hopen : p'.closing = .open) (h : p.IsOpen) :
    p'.IsOpen := by
  cases hmove with
  | acquire hacquire =>
    obtain ⟨s, -, -, -, hrep⟩ := Table.acquire_granted hacquire
    exact ⟨h.lines, hrep.isShutDown_eq.trans h.table⟩
  | record hphase hissue =>
    obtain ⟨s, -, -, hrep⟩ := Table.recordIssue_ok hissue
    exact ⟨h.lines, hrep.isShutDown_eq.trans h.table⟩
  | mark hphase hmark =>
    obtain ⟨s, -, hrep⟩ := Table.markCheckpointDone_ok hmark
    exact ⟨h.lines, hrep.isShutDown_eq.trans h.table⟩
  | complete hmem hreport =>
    exact ⟨h.lines, (Table.recordCompletion_isShutDown hreport).trans h.table⟩
  | report hreport =>
    exact ⟨h.lines, (Table.recordCompletion_isShutDown hreport).trans h.table⟩
  | close hclosing hnot => exact absurd hopen hnot
  | abort => exact nomatch hopen
  | _ => exact ⟨h.lines, h.table⟩

/-- An open pipeline is `Disturbed` by mishaps only. -/
theorem not_disturbed (hopen : p.IsOpen) (hc : p.Chronicle es) (ha : a.isMishap = false) :
    ¬ p.Disturbed a := by
  rintro (⟨s, hs⟩ | hdown | hmishap | ⟨place, hmem, ⟨f, hf⟩ | hnone⟩)
  · rw [hopen.lines s] at hs
    exact nomatch hs
  · rw [hopen.table] at hdown
    exact nomatch hdown
  · rw [ha] at hmishap
    exact nomatch hmishap
  · exact hc.recordIssue_ne_error hmem hf
  · obtain ⟨s, hs, -⟩ := hc.placed place hmem
    rw [hnone] at hs
    exact nomatch hs

/-! ## Workers that go on -/

/-- Workers that are `Alive` stay so when one goes into a phase that is not over. -/
theorem Alive.setPhase {st : Stage} {phase : Phase} (h : p.Alive) (hphase : phase.isOver = false) :
    (p.setPhase st phase).Alive := by
  intro t
  rw [Pipeline.setPhase, PerStage.get_set]
  split
  · exact hphase
  · exact h t

/-- Workers go on unless a move disturbs them (`Disturbed`). -/
theorem Move.alive (hmove : p.Move a es p') (hcalm : ¬ p.Disturbed a) (h : p.Alive) : p'.Alive := by
  cases hmove with
  | stop _ hcause => exact absurd (hcause.elim .inl (.inr ∘ .inl)) hcalm
  | @fault s f id hphase hcause =>
    obtain ⟨place, hplace, rfl⟩ := Phase.place?_of_held? (s := s) hphase
    refine absurd (.inr (.inr (.inr ⟨place, mem_places_of_phase hplace, ?_⟩))) hcalm
    exact hcause.imp_left fun hf => ⟨f, hf⟩
  | clientPanic | devicePanic => exact absurd (.inr (.inr (.inl rfl))) hcalm
  | take | record | hand | pass | notify | mark => exact Alive.setPhase h rfl
  | advance => exact Alive.setPhase h (by split <;> rfl)
  | note | acquire | accept | turnAway | complete | drop | report | close | abort | turn => exact h

/-! ## Places and tokens that stay -/

/-- Every write that occupies a slot has its place, and every operation of it that is on record and
not noted as complete has its token, unless that was dropped. -/
structure Kept (p : Pipeline) (es : List Event) : Prop where
  placed : ∀ id s, p.table.slot? id = some s → s.inUse = true → ∃ place ∈ p.places, place.id = id
  tokened : ∀ id s op, p.table.slot? id = some s → s.inUse = true →
    op ∈ issues id (since id es) → s.completed.contains op = false →
      ∃ t : Token, t.writeId = id ∧ t.operation = op ∧ (t ∈ p.tokens ∨ .dropped t ∈ es)

/-- An entry that changes no slot keeps what is `Kept`, if every write has a place still and tokens
are at most dropped. -/
private theorem Kept.quiet (h : p.Kept es) (hes : ∀ e ∈ es', e.slot? = none)
    (hslots : p'.table.slots = p.table.slots)
    (hplaces : ∀ place ∈ p.places, ∃ place' ∈ p'.places, place'.id = place.id)
    (htokens : ∀ t ∈ p.tokens, t ∈ p'.tokens ∨ .dropped t ∈ es') : p'.Kept (es ++ es') := by
  refine ⟨fun i s hs huse => ?_, fun i s op hs huse hissued hlacks => ?_⟩
  · rw [slot?_of_slots_eq hslots] at hs
    obtain ⟨place, hmem, rfl⟩ := h.placed i s hs huse
    exact hplaces place hmem
  · rw [slot?_of_slots_eq hslots] at hs
    rw [issues_since_of_inert fun e he => Event.isInert_of_slot?_eq_none (hes e he)] at hissued
    obtain ⟨t, hid, hop, hmem⟩ := h.tokened i s op hs huse hissued hlacks
    refine ⟨t, hid, hop, ?_⟩
    rw [List.mem_append]
    rcases hmem with hmem | hdropped
    · exact (htokens t hmem).imp_right .inr
    · exact .inr (.inl hdropped)

/-- An entry that replaces one slot keeps what is `Kept`, if nothing of the new one is lost. -/
private theorem Kept.replaces (h : p.Kept es) (hrep : Table.Replaces p.table p'.table id s s')
    (hes : ∀ e ∈ es', e.slot? = some id)
    (hplaces : ∀ place ∈ p.places, place.id ≠ id → ∃ place' ∈ p'.places, place'.id = place.id)
    (htokens : ∀ t ∈ p.tokens, t.writeId ≠ id → t ∈ p'.tokens)
    (hself : s'.inUse = true → ∃ place ∈ p'.places, place.id = id)
    (hissued : s'.inUse = true → ∀ op ∈ issues id (since id (es ++ es')),
      s'.completed.contains op = false →
        ∃ t : Token, t.writeId = id ∧ t.operation = op ∧ (t ∈ p'.tokens ∨ .dropped t ∈ es)) :
    p'.Kept (es ++ es') := by
  -- Each part is asked of the slot `id` and of the others, to which the events say nothing.
  refine ⟨fun i t ht huse => ?_, fun i t op ht huse hop hlacks => ?_⟩
  · by_cases hi : i = id
    · subst hi
      rw [hrep.slot?_self, Option.some.injEq] at ht
      subst ht
      exact hself huse
    · rw [hrep.slot?_of_ne hi] at ht
      obtain ⟨place, hmem, rfl⟩ := h.placed i t ht huse
      exact hplaces place hmem hi
  · by_cases hi : i = id
    · subst hi
      rw [hrep.slot?_self, Option.some.injEq] at ht
      subst ht
      obtain ⟨token, hid, htoken, hmem⟩ := hissued huse op hop hlacks
      exact ⟨token, hid, htoken, hmem.imp_right (List.mem_append_left _)⟩
    · rw [hrep.slot?_of_ne hi] at ht
      rw [issues_since_of_inert fun e he => Event.isInert_of_slot?_eq_some (hes e he) hi] at hop
      obtain ⟨token, hid, htoken, hmem⟩ := h.tokened i t op ht huse hop hlacks
      exact ⟨token, hid, htoken, hmem.imp (htokens token · (by rw [hid]; exact hi))
        (List.mem_append_left _)⟩

/-- A claim keeps what is `Kept`: the new occupant has its place, and no token yet. -/
private theorem Kept.claim {g : Generation} (h : p.Kept es)
    (hacquire : p.table.acquire id = .granted p'.table g)
    (hplaces : p'.places.Perm (.admitted id :: p.places)) (htokens : p'.tokens.Perm p.tokens) :
    p'.Kept (es ++ [.acquired id g]) := by
  obtain ⟨s, -, -, -, hrep⟩ := Table.acquire_granted hacquire
  refine h.replaces hrep (by simp [Event.slot?]) (fun place hmem _ => ⟨place, ?_, rfl⟩)
    (fun t hmem _ => htokens.mem_iff.mpr hmem)
    (fun _ => ⟨.admitted id, hplaces.mem_iff.mpr List.mem_cons_self, rfl⟩) fun _ op hop => ?_
  · exact hplaces.mem_iff.mpr (List.mem_cons_of_mem _ hmem)
  · rw [since_acquired] at hop
    cases hop

/-- An issue keeps what is `Kept`: the operation has its token from then on. -/
private theorem Kept.issue {st : Stage} {op : Operation} {left : List Operation} {g : Generation}
    {rest : List Place} (h : p.Kept es) (hissue : p.table.recordIssue id = .ok (p'.table, g))
    (hplaces : p.places.Perm (⟨id, op :: left, st.index, none⟩ :: rest))
    (hplaces' : p'.places.Perm (⟨id, left, st.index, some ⟨id, op, g⟩⟩ :: rest))
    (htokens : p'.tokens.Perm (⟨id, op, g⟩ :: p.tokens)) :
    p'.Kept (es ++ [.issued st ⟨id, op, g⟩]) := by
  obtain ⟨s, huse, -, hrep⟩ := Table.recordIssue_ok hissue
  refine h.replaces hrep (by simp [Event.slot?]) (fun place hmem hne => ⟨place, ?_, rfl⟩)
    (fun t hmem _ => htokens.mem_iff.mpr (List.mem_cons_of_mem _ hmem))
    (fun _ => ⟨_, hplaces'.mem_iff.mpr List.mem_cons_self, rfl⟩) fun _ o ho hlacks => ?_
  · rcases List.mem_cons.mp (hplaces.mem_iff.mp hmem) with rfl | hmem
    · exact absurd rfl hne
    · exact hplaces'.mem_iff.mpr (List.mem_cons_of_mem _ hmem)
  · -- An operation on record is an old one with its old token, or the new one with the new token.
    rw [since_append (by simp [Event.acquires]), issues_append] at ho
    rcases List.mem_append.mp ho with ho | ho
    · obtain ⟨t, hid, ht, hmem⟩ := h.tokened id s o hrep.old huse ho hlacks
      exact ⟨t, hid, ht,
        hmem.imp_left fun hmem => htokens.mem_iff.mpr (List.mem_cons_of_mem _ hmem)⟩
    · obtain rfl : o = op := by simpa [issues, Event.issues?] using ho
      exact ⟨_, rfl, rfl, .inl (htokens.mem_iff.mpr List.mem_cons_self)⟩

/-- A mark keeps what is `Kept`: the write leaves its place and its slot at once. -/
private theorem Kept.settle {released : Bool} (hc : p.Chronicle es) (hl : p.Ledger es)
    (h : p.Kept es) (hmark : p.table.markCheckpointDone id = .ok (p'.table, released))
    (hplaces : p.places.Perm (⟨id, [], 3, none⟩ :: p'.places)) (htokens : p'.tokens.Perm p.tokens) :
    p'.Kept (es ++ [.checkpointed id released]) := by
  have hmem : ⟨id, [], 3, none⟩ ∈ p.places := hplaces.mem_iff.mpr List.mem_cons_self
  obtain ⟨s, hrep, huse, hreleased, hiff⟩ := hc.released_iff hmem rfl rfl hmark
  -- Only tokens report here, so every report was counted and the mark frees the slot.
  have hbalanced : Balanced id (since id es) :=
    (hc.occupied id s hrep.old huse).balanced_iff.mpr (hl.vouched id s hrep.old huse).uncounted_eq
  have hdrained : s.mark.isDrained = true := hreleased ▸ hiff.mpr hbalanced
  rw [Slot.settle_of_drained (s := s.mark) huse hdrained] at hrep
  refine h.replaces hrep (by simp [Event.slot?]) (fun place hmem hne => ⟨place, ?_, rfl⟩)
    (fun t hmem _ => htokens.mem_iff.mpr hmem) nofun nofun
  rcases List.mem_cons.mp (hplaces.mem_iff.mp hmem) with rfl | hmem
  · exact absurd rfl hne
  · exact hmem

/-- A completion keeps what is `Kept`: the operation is noted instead of its token. -/
private theorem Kept.complete {t : Token} {v : Table.Verdict} (hc : p.Chronicle es)
    (hl : p.Ledger es) (h : p.Kept es)
    (hreport : p.table.recordCompletion t.writeId t.operation (some t.generation) = (p'.table, v))
    (hplaces : p'.places.Perm p.places) (htokens : p.tokens.Perm (t :: p'.tokens)) :
    p'.Kept (es ++ [.reported t.writeId t.operation (some t.generation) v]) := by
  obtain ⟨s, hbelongs, rfl, hrep⟩ :=
    hl.completed hc hreport (htokens.mem_iff.mpr List.mem_cons_self)
  have hother {t' : Token} (hmem : t' ∈ p.tokens) (hne : t' ≠ t) : t' ∈ p'.tokens :=
    (List.mem_cons.mp (htokens.mem_iff.mp hmem)).resolve_left hne
  refine h.replaces hrep (by simp [Event.slot?])
    (fun place hmem _ => ⟨place, hplaces.mem_iff.mpr hmem, rfl⟩)
    (fun t' hmem hne => hother hmem fun heq => hne (heq ▸ rfl)) (fun huse => ?_)
    fun huse op hop hlacks => ?_
  · obtain ⟨place, hmem, hid⟩ := h.placed _ s hrep.old hbelongs.inUse
    exact ⟨place, hplaces.mem_iff.mpr hmem, hid⟩
  · simp only [Slot.complete, OpSet.contains_insert, Bool.or_eq_false_iff,
      decide_eq_false_iff_not] at hlacks
    rw [since_append (by simp [Event.acquires]), issues_append] at hop
    have hop : op ∈ issues t.writeId (since t.writeId es) := by
      simpa [issues, Event.issues?] using hop
    obtain ⟨t', hid, rfl, hmem⟩ := h.tokened _ s op hrep.old hbelongs.inUse hop hlacks.1
    -- What is still lacking is another operation, so its token is another one.
    exact ⟨t', hid, rfl, hmem.imp_left (hother · fun heq => hlacks.2 (heq ▸ rfl))⟩

/-- An entry that neither disturbs nor reports by write id loses nothing that is `Kept`. -/
theorem Entry.kept (hentry : p.Entry a p' es') (hcalm : ¬ p.Disturbed a)
    (ha : ∀ id op, a ≠ .report id op) (hc : p.Chronicle es) (hl : p.Ledger es) (h : p.Kept es) :
    p'.Kept (es ++ es') := by
  cases hentry with
  | idle hes hslots hplaces htokens =>
    exact h.quiet hes hslots (fun place hmem => ⟨place, hplaces.mem_iff.mpr hmem, rfl⟩)
      fun t hmem => .inl (htokens.mem_iff.mpr hmem)
  -- A place is lost only to a panic, a fault or a shutdown.
  | lose hes hslots hplaces htokens hcause => exact absurd hcause hcalm
  | claim hacquire hplaces htokens => exact h.claim hacquire hplaces htokens
  | issue hop hissue hplaces hplaces' htokens => exact h.issue hissue hplaces hplaces' htokens
  | progress hes hslots hplaces hplaces' hpassed htokens =>
    refine h.quiet hes hslots (fun place' hmem => ?_) fun t hmem => .inl (htokens.mem_iff.mpr hmem)
    rcases List.mem_cons.mp (hplaces.mem_iff.mp hmem) with rfl | hmem
    · exact ⟨_, hplaces'.mem_iff.mpr List.mem_cons_self, rfl⟩
    · exact ⟨place', hplaces'.mem_iff.mpr (List.mem_cons_of_mem _ hmem), rfl⟩
  | settle hmark hplaces htokens => exact h.settle hc hl hmark hplaces htokens
  | report hreport hplaces htokens =>
    rcases htokens with ⟨rfl, -⟩ | ⟨t, -, rfl, rfl, rfl, htokens⟩
    · exact absurd rfl (ha _ _)
    · exact h.complete hc hl hreport hplaces htokens

/-- A token that is dropped is not lost sight of: `Kept` counts the dropped ones. -/
private theorem Kept.drop {t : Token} (h : p.Kept es) :
    Kept { p with outstanding := p.outstanding.erase t } (es ++ [.dropped t]) := by
  refine h.quiet (by simp [Event.slot?]) rfl (fun place hmem => ⟨place, hmem, rfl⟩)
    fun t' hmem => ?_
  by_cases ht : t' = t
  · exact .inr (by rw [ht]; exact List.mem_singleton_self _)
  · refine .inl (List.mem_append.mpr ((List.mem_append.mp hmem).imp_left fun hmem => ?_))
    exact (List.mem_erase_of_ne ht).mpr hmem

/-- A pipeline that loses only what the device drops. -/
structure Keeps (p : Pipeline) (es : List Event) : Prop where
  isOpen : p.IsOpen
  alive : p.Alive
  kept : p.Kept es

/-- A `Move` that neither shuts down nor panics nor reports by write id loses only what is
dropped. -/
theorem Move.keeps (hmove : p.Move a es' p') (hopen : p'.closing = .open) (ha : a.isPanic = false)
    (hreport : ∀ id op, a ≠ .report id op) (hsuits : ∀ s, Suits s (p.workers.get s))
    (hc : p.Chronicle es) (hl : p.Ledger es) (h : p.Keeps es) : p'.Keeps (es ++ es') := by
  obtain ⟨hisOpen, halive, hkept⟩ := h
  have hisOpen' := hmove.isOpen hopen hisOpen
  cases hmishap : a.isMishap with
  | false =>
    -- The pipeline was open before the move, so only a mishap could have disturbed it.
    have hcalm := not_disturbed hisOpen hc hmishap
    exact ⟨hisOpen', hmove.alive hcalm halive, (hmove.entry hsuits).kept hcalm hreport hc hl hkept⟩
  | true =>
    obtain ⟨t, rfl⟩ := Journal.Action.drop_of_isMishap hmishap ha
    cases hmove with
    | note hes =>
      refine ⟨hisOpen, halive, hkept.quiet (fun e he => slot?_of_isNote (hes e he)) rfl ?_ ?_⟩
      · exact fun place hmem => ⟨place, hmem, rfl⟩
      · exact fun t hmem => .inl hmem
    | drop => exact ⟨hisOpen', halive, hkept.drop⟩
    | turn hes hnot => exact absurd hopen hnot

/-- Without a shutdown, without a panic and without reports by write id only tokens that are dropped
are lost (`Keeps`). -/
theorem Run.keeps {c : Config} {as : List Journal.Action} (h : Run c as p es)
    (hopen : p.closing = .open) (hpanic : ∀ a ∈ as, a.isPanic = false)
    (has : ∀ id op, .report id op ∉ as) : p.Keeps es := by
  induction h with
  | start =>
    refine ⟨⟨fun s => by cases s <;> rfl, rfl⟩, fun s => by cases s <;> rfl,
      fun i s hs huse => ?_, fun i s op hs huse => ?_⟩
    · rw [Table.inUse_of_create _ hs] at huse
      exact nomatch huse
    · rw [Table.inUse_of_create _ hs] at huse
      exact nomatch huse
  | @move as p p' es es' a hrun hmove ih =>
    have hreports := fun id op hmem => has id op (List.mem_append_left _ hmem)
    have hlast : a ∈ as ++ [a] := List.mem_append_right _ List.mem_cons_self
    have hkeeps := ih (hmove.closing_eq_open hopen)
      (fun b hb => hpanic b (List.mem_append_left _ hb)) hreports
    refine hmove.keeps hopen (hpanic a hlast) ?_ hrun.suited hrun.chronicle (hrun.ledger hreports)
      hkeeps
    rintro id op rfl
    exact has id op hlast

end WriteAhead.Pipeline
