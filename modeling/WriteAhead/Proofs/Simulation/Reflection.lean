import WriteAhead.Proofs.Device.Calls
import WriteAhead.Proofs.Journal.Accounting
import WriteAhead.Proofs.Simulation.Traversal

/-!
# The request of a write on its way through the device

`Reflects` ties the notes that a device makes for a request to the occupant of its slot: what was
issued is on record, and what is noted as completed is what the table knows and what is on its way
there. The device notes a completion before the table hears of it, so whatever the table waits for
stands in the notes before whatever it lets happen then.

## Key results

- `Reflects.issue`, `Reflects.note`: how the notes grow
- `Reflects.claim`, `Reflects.record`, `Reflects.give`: what the journal does without a note
- `Reflects.settle`: the checkpoint stage is done with a whole traversal
-/

namespace WriteAhead

theorem Device.mem_tokens_of_noted {d : Device} {t : Token} (h : t ∈ d.noted) : t ∈ d.tokens :=
  List.count_pos_iff.mp (Nat.lt_of_lt_of_le (List.count_pos_iff.mpr h) (d.count_noted_le t))

namespace Simulation

variable {id : WriteId} {p p' : Pipeline} {es es' : List WriteAhead.Event} {d d' : Device}
  {log : List IoEvent} {a : Journal.Action} {t : Token}

/-- What the log tells of the request of a write that is on its way. -/
structure Reflects (id : WriteId) (p : Pipeline) (es : List WriteAhead.Event) (d : Device)
    (log : List IoEvent) : Prop where
  traversal : Traversal id log
  occupied : log ≠ [] → ∃ s, p.table.slot? id = some s ∧ s.inUse = true ∧ s.checkpointDone = false
  /-- Whatever was issued is on record. -/
  recorded : log.filterMap IoEvent.issued? <+: issues id (since id es)
  /-- Whatever is on record was issued, but for the token on its way to the device. -/
  placed : ∀ place ∈ p.places, place.id = id → issues id (since id es) =
    log.filterMap IoEvent.issued? ++ (place.token?.map (·.operation)).toList
  handed : ∀ t ∈ d.tokens, t.writeId = id → t.operation ∈ log.filterMap IoEvent.issued?
  /-- Whatever is noted as completed is known to the table, or it is on its way there. -/
  completed : ∀ s, p.table.slot? id = some s → s.inUse = true → ∀ op,
    op ∈ log.filterMap IoEvent.completed? ↔
      s.completed.contains op = true ∨ ∃ t ∈ d.noted, t.writeId = id ∧ t.operation = op

/-- What is about other writes changes nothing that a log `Reflects`. -/
theorem Reflects.frame (h : Reflects id p es d log) (hes : ∀ e ∈ es', e.slot? ≠ some id)
    (hslot : p'.table.slot? id = p.table.slot? id)
    (hplaces : ∀ place ∈ p'.places, place.id = id →
      ∃ old ∈ p.places, old.id = id ∧ old.token? = place.token?)
    (htokens : ∀ t ∈ d'.tokens, t.writeId = id → t ∈ d.tokens)
    (hnoted : ∀ t, t.writeId = id → (t ∈ d'.noted ↔ t ∈ d.noted)) :
    Reflects id p' (es ++ es') d' log := by
  have hissues : issues id (since id (es ++ es')) = issues id (since id es) :=
    issues_since_of_inert fun e he => Event.isInert_of_slot?_ne (hes e he)
  refine ⟨h.traversal, fun hlog => hslot ▸ h.occupied hlog, ?_, fun place hmem hid => ?_,
    fun t hmem hid => h.handed t (htokens t hmem hid) hid, fun s hs huse op => ?_⟩
  · rw [hissues]
    exact h.recorded
  · obtain ⟨old, hold, hid', htoken⟩ := hplaces place hmem hid
    rw [hissues, ← htoken]
    exact h.placed old hold hid'
  · rw [h.completed s (hslot ▸ hs) huse op]
    refine or_congr_right (exists_congr fun t => ?_)
    exact and_congr_left fun ⟨hid, _⟩ => (hnoted t hid).symm

/-! ## Entries -/

/-- The slot of a write is claimed (`acquire`). Until then nothing was on its way, so its log is
empty. -/
theorem Reflects.claim {g : Generation} (h : Reflects id p es d log) (hc : p.Chronicle es)
    (hl : p.Ledger es) (hheld : ∀ t ∈ d.tokens, t ∈ p.tokens)
    (hacquire : p.table.acquire id = .granted p'.table g)
    (hplaces : p'.places.Perm (.admitted id :: p.places)) :
    Reflects id p' (es ++ [.acquired id g]) d log := by
  obtain ⟨s, hfree, -, -, hrep⟩ := Table.acquire_granted hacquire
  obtain rfl : log = [] := by
    by_contra hlog
    obtain ⟨s', hs', huse, -⟩ := h.occupied hlog
    obtain rfl : s = s' := Option.some.inj (hrep.old.symm.trans hs')
    rw [hfree] at huse
    exact nomatch huse
  -- Places and tokens are of occupants, and there was none.
  have hnone {t : Token} (hmem : t ∈ d.tokens) : t.writeId ≠ id := by
    rintro rfl
    have := (hl.belongs_of_slot (hheld t hmem) hrep.old).inUse
    rw [hfree] at this
    exact nomatch this
  refine ⟨.nil id, nofun, List.nil_prefix, fun place hmem hid => ?_,
    fun t hmem hid => absurd hid (hnone hmem), fun s' hs' _ op => ?_⟩
  · rw [since_acquired]
    rcases List.mem_cons.mp (hplaces.mem_iff.mp hmem) with rfl | hmem
    · rfl
    · subst hid
      have := (hc.fits hmem hrep.old).inUse
      rw [hfree] at this
      exact nomatch this
  · obtain rfl : s.occupy = s' := Option.some.inj (hrep.slot?_self.symm.trans hs')
    refine iff_of_false List.not_mem_nil ?_
    rintro (hcontains | ⟨t, hmem, hid, -⟩)
    · simp [Slot.occupy] at hcontains
    · exact hnone (Device.mem_tokens_of_noted hmem) hid

/-- An operation is put on record (`recordIssue`). It is not in the log yet, but its token is at the
place of the write. -/
theorem Reflects.record {st : Stage} {op : Operation} {left : List Operation}
    {g : Generation} {rest : List Place} (h : Reflects id p es d log) (hc : p.Chronicle es)
    (hissue : p.table.recordIssue id = .ok (p'.table, g))
    (hplaces : p.places.Perm (⟨id, op :: left, st.index, none⟩ :: rest))
    (hplaces' : p'.places.Perm (⟨id, left, st.index, some ⟨id, op, g⟩⟩ :: rest)) :
    Reflects id p' (es ++ [.issued st ⟨id, op, g⟩]) d log := by
  obtain ⟨s, huse, rfl, hrep⟩ := Table.recordIssue_ok hissue
  have hunmarked := (hc.fits (hplaces.mem_iff.mpr List.mem_cons_self) hrep.old).unmarked
  -- The issue is the newest since the claim.
  have hissues : issues id (since id (es ++ [.issued st ⟨id, op, s.generation⟩])) =
      issues id (since id es) ++ [op] := by
    rw [since_append (by simp [Event.acquires]), issues_append]
    simp [issues, Event.issues?]
  refine ⟨h.traversal, fun _ => ⟨_, hrep.slot?_self, huse, hunmarked⟩, ?_,
    fun place hmem hid => ?_, h.handed, fun s' hs' _ => ?_⟩
  · rw [hissues]
    exact h.recorded.trans (List.prefix_append _ _)
  · rw [hissues]
    rcases List.mem_cons.mp (hplaces'.mem_iff.mp hmem) with rfl | hmem
    · have hold := h.placed _ (hplaces.mem_iff.mpr List.mem_cons_self) rfl
      rw [hold]
      simp
    · exact absurd hid (hc.ne_of_mem hplaces hmem)
  · obtain rfl : s.issue = s' := Option.some.inj (hrep.slot?_self.symm.trans hs')
    exact h.completed s hrep.old huse

/-- The checkpoint stage is done with a write. Its traversal is `Whole`, and the slot is free. -/
theorem Reflects.settle {released : Bool} (h : Reflects id p es d log)
    (hc : p.Chronicle es) (hl : p.Ledger es) (hheld : ∀ t ∈ d.tokens, t ∈ p.tokens)
    (hmark : p.table.markCheckpointDone id = .ok (p'.table, released))
    (hplaces : p.places.Perm (⟨id, [], 3, none⟩ :: p'.places)) :
    Traversal.Whole id log ∧ Reflects id p' (es ++ [.checkpointed id released]) d [] := by
  have hmem : ⟨id, [], 3, none⟩ ∈ p.places := hplaces.mem_iff.mpr List.mem_cons_self
  obtain ⟨-, s, s', hs, huse, hs', hfree⟩ := hl.released hc hmem hmark
  have hall (op : Operation) : s.completed.contains op = true :=
    (hc.fits hmem hs).passed op (Nat.lt_succ_of_le op.stage.index_le)
  refine ⟨h.traversal.whole fun op => (h.completed s hs huse op).mpr (.inl (hall op)), .nil id,
    nofun, List.nil_prefix, fun place hmem hid => absurd hid (hc.ne_of_mem hplaces hmem),
    fun t hmem hid => ?_, fun s₁ hs₁ huse₁ => ?_⟩
  · -- The occupant has completed everything, so no token of its own is left.
    subst hid
    have hlacks := (hl.belongs_of_slot (hheld t ‹_›) hs).lacks
    rw [hall] at hlacks
    exact nomatch hlacks
  · obtain rfl : s' = s₁ := Option.some.inj (hs'.symm.trans hs₁)
    rw [hfree] at huse₁
    exact nomatch huse₁

/-! ## Tokens on their way through the device -/

/-- A worker issues the token of a write to the device, which notes it as the next of the
`Traversal`. -/
theorem Reflects.issue {st : Stage} {left : List Operation} {rest : List Place}
    (h : Reflects t.writeId p es d log) (hc : p.Chronicle es) (hst : t.operation.stage = st)
    (htable : p'.table = p.table)
    (hplaces : p.places.Perm (⟨t.writeId, left, st.index, some t⟩ :: rest))
    (hplaces' : p'.places.Perm (⟨t.writeId, left, st.index, none⟩ :: rest))
    (htokens : d'.tokens.Perm (t :: d.tokens)) (hnoted : d'.noted = d.noted) :
    Reflects t.writeId p' (es ++ [.handed st t]) d'
      (log ++ [⟨.issued, t.writeId, t.operation⟩]) := by
  have hmem : ⟨t.writeId, left, st.index, some t⟩ ∈ p.places :=
    hplaces.mem_iff.mpr List.mem_cons_self
  obtain ⟨s, hs, hfits⟩ := hc.placed _ hmem
  have hissues : issues t.writeId (since t.writeId (es ++ [.handed st t])) =
      issues t.writeId (since t.writeId es) :=
    issues_since_of_inert fun e he => Event.isInert_of_slot?_eq_none
      (List.mem_singleton.mp he ▸ rfl)
  have hrecorded : issues t.writeId (since t.writeId es) =
      log.filterMap IoEvent.issued? ++ [t.operation] := h.placed _ hmem rfl
  have hall : issues t.writeId (since t.writeId (es ++ [.handed st t])) =
      (log ++ [IoEvent.mk .issued t.writeId t.operation]).filterMap IoEvent.issued? := by
    rw [hissues, hrecorded, IoEvent.filterMap_issued?_issued]
  refine ⟨h.traversal.issue ?_ fun o ho => ?_,
    fun _ => ⟨s, htable ▸ hs, hfits.inUse, hfits.unmarked⟩, hall ▸ List.prefix_rfl,
    fun place hmem' hid => ?_, fun t' hmem' hid => ?_, fun s' hs' huse' op => ?_⟩
  · -- What is on record is the first of all operations.
    rw [Stage.flatMap_operations, ← hfits.issues_left, ← hrecorded]
    exact List.prefix_append _ _
  · rw [h.completed s hs hfits.inUse]
    exact .inl (hfits.passed o (hst ▸ ho))
  · rw [hall]
    rcases List.mem_cons.mp (hplaces'.mem_iff.mp hmem') with rfl | hmem'
    · exact (List.append_nil _).symm
    · exact absurd hid (hc.ne_of_mem hplaces hmem')
  · rw [IoEvent.filterMap_issued?_issued]
    rcases List.mem_cons.mp (htokens.mem_iff.mp hmem') with rfl | hmem'
    · exact List.mem_append_right _ List.mem_cons_self
    · exact List.mem_append_left _ (h.handed t' hmem' hid)
  · rw [IoEvent.filterMap_completed?_issued, hnoted]
    exact h.completed s' (htable ▸ hs') huse' op

/-- One more token of a write completes one more of its operations. -/
private theorem exists_operation_cons {ts ts' : List Token} (h : ts.Perm (t :: ts'))
    (op : Operation) : (∃ u ∈ ts, u.writeId = t.writeId ∧ u.operation = op) ↔
      op = t.operation ∨ ∃ u ∈ ts', u.writeId = t.writeId ∧ u.operation = op := by
  simp only [h.mem_iff, List.mem_cons, or_and_right, exists_or, exists_eq_left, true_and]
  exact or_congr_left eq_comm

/-- The device notes a token of a write as completed (`noted`), before the table hears of it. -/
theorem Reflects.note (h : Reflects t.writeId p es d log) (hc : p.Chronicle es)
    (hl : p.Ledger es) (hheld : ∀ t ∈ d.tokens, t ∈ p.tokens) (hmem : t ∈ d.tokens)
    (hnew : t ∉ d.noted)
    (htokens : d'.tokens.Perm d.tokens) (hnoted : d'.noted.Perm (t :: d.noted)) :
    Reflects t.writeId p es d' (log ++ [⟨.completed, t.writeId, t.operation⟩]) := by
  obtain ⟨s, hs, hbelongs⟩ := hl.belongs t (hheld t hmem)
  have hunmarked := hc.unmarked hs hbelongs.inUse hbelongs.lacks
  -- The table does not know of it, and another token for it would be the same token.
  have hfresh : t.operation ∉ log.filterMap IoEvent.completed? := by
    rw [h.completed s hs hbelongs.inUse]
    rintro (hcontains | ⟨t', hmem', hid, hop⟩)
    · rw [hbelongs.lacks] at hcontains
      exact nomatch hcontains
    · have hbelongs' := hl.belongs_of_slot (s := s) (hheld t' (Device.mem_tokens_of_noted hmem'))
        (hid ▸ hs)
      exact hnew (hbelongs.eq hbelongs' hid hop ▸ hmem')
  refine ⟨h.traversal.complete (h.handed t hmem rfl) hfresh,
    fun _ => ⟨s, hs, hbelongs.inUse, hunmarked⟩, ?_, ?_, ?_, fun s' hs' huse' op => ?_⟩
  · rw [IoEvent.filterMap_issued?_completed]
    exact h.recorded
  · rw [IoEvent.filterMap_issued?_completed]
    exact h.placed
  · rw [IoEvent.filterMap_issued?_completed]
    exact fun t' hmem' hid => h.handed t' (htokens.mem_iff.mp hmem') hid
  · rw [IoEvent.filterMap_completed?_completed, List.mem_append, List.mem_singleton,
      h.completed s' hs' huse' op, exists_operation_cons hnoted, or_assoc]
    exact or_congr_right or_comm

/-- The device gives a token of a write back: what was on its way to the table is known to it then
(`recordCompletion`). -/
theorem Reflects.give {v : Table.Verdict} (h : Reflects t.writeId p es d log)
    (hc : p.Chronicle es) (hl : p.Ledger es) (hmem : t ∈ p.tokens)
    (hreport : p.table.recordCompletion t.writeId t.operation (some t.generation) = (p'.table, v))
    (hplaces : p'.places.Perm p.places) (htokens : d.tokens.Perm (t :: d'.tokens))
    (hnoted : d.noted.Perm (t :: d'.noted)) :
    Reflects t.writeId p' (es ++ [.reported t.writeId t.operation (some t.generation) v]) d'
      log := by
  obtain ⟨s, hbelongs, -, hrep⟩ := hl.completed hc hreport hmem
  have hunmarked := hc.unmarked hrep.old hbelongs.inUse hbelongs.lacks
  -- A report issues nothing.
  have hissues : issues t.writeId (since t.writeId
      (es ++ [.reported t.writeId t.operation (some t.generation) v])) =
      issues t.writeId (since t.writeId es) := by
    rw [since_append (by simp [Event.acquires]), issues_append]
    simp [issues, Event.issues?]
  refine ⟨h.traversal, fun _ => ⟨_, hrep.slot?_self, hbelongs.inUse, hunmarked⟩, ?_,
    fun place hmem hid => ?_,
    fun t' hmem' hid => h.handed t' (htokens.mem_iff.mpr (List.mem_cons_of_mem _ hmem')) hid,
    fun s' hs' _ op => ?_⟩
  · rw [hissues]
    exact h.recorded
  · rw [hissues]
    exact h.placed place (hplaces.mem_iff.mp hmem) hid
  · obtain rfl : s.complete t.operation = s' := Option.some.inj (hrep.slot?_self.symm.trans hs')
    rw [h.completed s hrep.old hbelongs.inUse op, exists_operation_cons hnoted, Slot.complete,
      OpSet.contains_insert, Bool.or_eq_true, decide_eq_true_eq, or_assoc]

end Simulation

end WriteAhead
