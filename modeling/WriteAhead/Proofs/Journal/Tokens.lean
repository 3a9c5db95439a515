import WriteAhead.Proofs.Journal.Chronicle

/-!
# Completion by tokens alone

When every completion is reported with its token, there is one token for each operation that is on
record and not noted as complete, and it belongs to the occupant of its slot. `Ledger` says so. Its
consequences are that no report comes before its time and that none is for another occupant than
the one for which the operation was issued, even though generations wrap around.

## Key results

- `Run.ledger`: without reports by write id, tokens belong to the occupants of their slots
- `Vouched`: what this says about an occupant
-/

namespace WriteAhead

variable {id : WriteId} {es es' : List Event} {e : Event} {s s' : Slot} {g : Generation}

/-- Whether each operation that is noted as complete was reported with the `Token` of an issue. -/
def Backed (id : WriteId) (g : Generation) (es : List Event) : Prop :=
  ∀ before op generation v, before ++ [.reported id op generation v] <+: es → v.isAccepted = true →
    generation = some g ∧ .issued op.stage ⟨id, op, g⟩ ∈ before

/-- One more event keeps an occupant `Backed` if it is no report that is accepted, or one with a
token of an issue. -/
theorem backed_concat : Backed id g (es ++ [e]) ↔ Backed id g es ∧
    ∀ op generation v, e = .reported id op generation v → v.isAccepted = true →
      generation = some g ∧ .issued op.stage ⟨id, op, g⟩ ∈ es := by
  constructor
  · intro h
    refine ⟨fun before op generation v hb =>
      h before op generation v (hb.trans (List.prefix_append _ _)), ?_⟩
    rintro op generation v rfl
    exact h es op generation v List.prefix_rfl
  · rintro ⟨hes, he⟩ before op generation v hb
    rcases List.prefix_concat_iff.mp hb with heq | hb
    · obtain ⟨rfl, hlast⟩ := List.append_inj' heq rfl
      exact he op generation v (List.singleton_inj.mp hlast).symm
    · exact hes before op generation v hb

/-- Events that complete nothing leave an occupant `Backed`. -/
theorem backed_append (h : ∀ e ∈ es', e.completes? id = none) :
    Backed id g (es ++ es') ↔ Backed id g es := by
  induction es' using List.reverseRecOn with
  | nil => rw [List.append_nil]
  | append_singleton es' e ih =>
    rw [← List.append_assoc, backed_concat, ih fun e' he' => h e' (by simp [he'])]
    refine and_iff_left_of_imp fun _ op generation v heq hv => ?_
    have := h e (by simp)
    rw [heq] at this
    simp [Event.completes?, hv] at this

/-- An occupant is vouched for: only operations on record are noted as complete, none before its
time, and each with a token of this occupant. -/
structure Vouched (es : List Event) (id : WriteId) (s : Slot) : Prop where
  issued : ∀ op, s.completed.contains op = true → op ∈ issues id (since id es)
  uncounted_eq : uncounted id (since id es) = 0
  backed : Backed id s.generation (since id es)

/-- Events that complete nothing keep an occupant `Vouched` for. -/
theorem Vouched.append (h : Vouched es id s) (hacquires : ∀ e ∈ es', e.acquires id = false)
    (hcompletes : ∀ e ∈ es', e.completes? id = none)
    (huncounted : ∀ e ∈ es', e.isUncounted id = false) (hgen : s'.generation = s.generation)
    (hcompleted : s'.completed = s.completed) : Vouched (es ++ es') id s' := by
  refine ⟨fun op hop => ?_, ?_, ?_⟩
  · rw [hcompleted] at hop
    rw [since_append hacquires, issues_append]
    exact List.mem_append_left _ (h.issued op hop)
  · rw [since_append hacquires, uncounted_append, h.uncounted_eq, Nat.zero_add]
    exact List.countP_eq_zero.mpr fun e he => by simp [huncounted e he]
  · rw [since_append hacquires, hgen, backed_append hcompletes]
    exact h.backed

/-- A token belongs to the occupant of its slot, who still lacks its operation. -/
structure Token.Belongs (t : Token) (es : List Event) (s : Slot) : Prop where
  inUse : s.inUse = true
  generation_eq : s.generation = t.generation
  lacks : s.completed.contains t.operation = false
  issued : .issued t.operation.stage t ∈ since t.writeId es

/-- The operation of a token that belongs to an occupant is among its `issues`. -/
theorem Token.Belongs.mem_issues {t : Token} (h : t.Belongs es s) :
    t.operation ∈ issues t.writeId (since t.writeId es) :=
  List.mem_filterMap.mpr ⟨_, h.issued, by simp [Event.issues?]⟩

/-- An occupant has one token for each operation, since both carry its `generation`. -/
theorem Token.Belongs.eq {t t' : Token} (h : t.Belongs es s) (h' : t'.Belongs es s)
    (hid : t'.writeId = t.writeId) (hop : t'.operation = t.operation) : t' = t := by
  have hgen := h'.generation_eq.symm.trans h.generation_eq
  obtain ⟨i', o', g'⟩ := t'
  obtain ⟨i, o, g⟩ := t
  simp only at hid hop hgen
  rw [hid, hop, hgen]

/-- A token still `Belongs` to an occupant that stays and still lacks its operation. -/
theorem Token.Belongs.append {t : Token} (h : t.Belongs es s)
    (hacquires : ∀ e ∈ es', e.acquires t.writeId = false) (huse : s'.inUse = true)
    (hgen : s'.generation = s.generation) (hlacks : s'.completed.contains t.operation = false) :
    t.Belongs (es ++ es') s' := by
  refine ⟨huse, hgen.trans h.generation_eq, hlacks, ?_⟩
  rw [since_append hacquires]
  exact List.mem_append_left _ h.issued

namespace Pipeline

variable {p p' : Pipeline} {a : Journal.Action}

/-- There is at most one token for each operation on record, it belongs to the occupant of its slot,
and every occupant is vouched for. -/
structure Ledger (p : Pipeline) (es : List Event) : Prop where
  nodup : p.tokens.Nodup
  belongs : ∀ t ∈ p.tokens, ∃ s, p.table.slot? t.writeId = some s ∧ t.Belongs es s
  vouched : ∀ id s, p.table.slot? id = some s → s.inUse = true → Vouched es id s

/-- A token of the ledger `Belongs` to the slot of its write. -/
theorem Ledger.belongs_of_slot {t : Token} (h : p.Ledger es) (hmem : t ∈ p.tokens)
    (hslot : p.table.slot? t.writeId = some s) : t.Belongs es s := by
  obtain ⟨s', hs', hbelongs⟩ := h.belongs t hmem
  rw [hslot, Option.some.injEq] at hs'
  rw [hs']
  exact hbelongs

/-- Events on no slot keep the `Ledger`, if tokens are at most lost. -/
private theorem Ledger.quiet (h : p.Ledger es) (hes : ∀ e ∈ es', e.slot? = none)
    (hslots : p'.table.slots = p.table.slots) (htokens : p'.tokens.Subperm p.tokens) :
    p'.Ledger (es ++ es') := by
  have hinert : ∀ i, ∀ e ∈ es', e.IsInert i := fun i e he =>
    Event.isInert_of_slot?_eq_none (hes e he)
  -- The slots are as before, so what is left of the tokens belongs where it did.
  refine ⟨?_, fun t hmem => ?_, fun i s hs huse => ?_⟩
  · obtain ⟨l, hperm, hsub⟩ := htokens
    exact hperm.nodup_iff.mp (h.nodup.sublist hsub)
  · obtain ⟨s, hs, hbelongs⟩ := h.belongs t (htokens.subset hmem)
    rw [slot?_of_slots_eq hslots]
    exact ⟨s, hs, hbelongs.append (fun e he => (hinert _ e he).acquires) hbelongs.inUse rfl
      hbelongs.lacks⟩
  · rw [slot?_of_slots_eq hslots] at hs
    exact (h.vouched i s hs huse).append (fun e he => (hinert i e he).acquires)
      (fun e he => (hinert i e he).completes?) (fun e he => (hinert i e he).isUncounted) rfl rfl

/-- A change of one slot keeps the `Ledger` if the tokens of that slot belong to what stands there
then. Those of other slots are not touched. -/
private theorem Ledger.replaces (h : p.Ledger es)
    (hrep : Table.Replaces p.table p'.table id s s') (hes : ∀ e ∈ es', e.slot? = some id)
    (hnodup : p'.tokens.Nodup) (hothers : ∀ t ∈ p'.tokens, t.writeId ≠ id → t ∈ p.tokens)
    (hself : ∀ t ∈ p'.tokens, t.writeId = id → t.Belongs (es ++ es') s')
    (hvouched : s'.inUse = true → Vouched (es ++ es') id s') : p'.Ledger (es ++ es') := by
  have hinert : ∀ i ≠ id, ∀ e ∈ es', e.IsInert i := fun i hi e he =>
    Event.isInert_of_slot?_eq_some (hes e he) hi
  refine ⟨hnodup, fun t hmem => ?_, fun i t ht huse => ?_⟩
  · -- Tokens of other slots, and the occupants of other slots, see none of the events.
    by_cases hi : t.writeId = id
    · exact ⟨s', by rw [hi]; exact hrep.slot?_self, hself t hmem hi⟩
    · obtain ⟨u, hu, hbelongs⟩ := h.belongs t (hothers t hmem hi)
      refine ⟨u, by rw [hrep.slot?_of_ne hi]; exact hu, ?_⟩
      exact hbelongs.append (fun e he => (hinert _ hi e he).acquires) hbelongs.inUse rfl
        hbelongs.lacks
  · by_cases hi : i = id
    · subst hi
      rw [hrep.slot?_self, Option.some.injEq] at ht
      subst ht
      exact hvouched huse
    · rw [hrep.slot?_of_ne hi] at ht
      exact (h.vouched i t ht huse).append (fun e he => (hinert i hi e he).acquires)
        (fun e he => (hinert i hi e he).completes?)
        (fun e he => (hinert i hi e he).isUncounted) rfl rfl

/-- A claim keeps the `Ledger`: the slot was free, so there is no token for it. -/
private theorem Ledger.claim (h : p.Ledger es) (hacquire : p.table.acquire id = .granted p'.table g)
    (htokens : p'.tokens.Perm p.tokens) : p'.Ledger (es ++ [.acquired id g]) := by
  obtain ⟨s, hfree, -, rfl, hrep⟩ := Table.acquire_granted hacquire
  refine h.replaces hrep (by simp [Event.slot?]) (htokens.nodup_iff.mpr h.nodup)
    (fun t hmem _ => htokens.mem_iff.mp hmem) (fun t hmem hid => ?_) fun _ => ⟨?_, ?_, ?_⟩
  · -- The slot was free, and tokens belong to slots in use.
    subst hid
    have := (h.belongs_of_slot (htokens.mem_iff.mp hmem) hrep.old).inUse
    rw [hfree] at this
    cases this
  · simp [Slot.occupy]
  · rw [since_acquired]
    rfl
  · rw [since_acquired]
    intro before op generation v hb
    simp at hb

/-- An issue keeps the `Ledger`: it adds the token of an operation that is on record now. -/
private theorem Ledger.issue {st : Stage} {op : Operation} {left : List Operation}
    {rest : List Place} (hc : p.Chronicle es) (h : p.Ledger es) (hop : op.stage = st)
    (hissue : p.table.recordIssue id = .ok (p'.table, g))
    (hplaces : p.places.Perm (⟨id, op :: left, st.index, none⟩ :: rest))
    (htokens : p'.tokens.Perm (⟨id, op, g⟩ :: p.tokens)) :
    p'.Ledger (es ++ [.issued st ⟨id, op, g⟩]) := by
  obtain ⟨s, huse, rfl, hrep⟩ := Table.recordIssue_ok hissue
  have hfits := hc.fits (hplaces.mem_iff.mpr List.mem_cons_self) hrep.old
  have hvouched := h.vouched id s hrep.old huse
  -- The operation is still to be put on record, so nobody can have its token or have completed it.
  have hnew : op ∉ issues id (since id es) := by
    have hnodup : (issues id (since id es) ++ op :: left).Nodup := by
      rw [show issues id (since id es) ++ op :: left = Operation.all from hfits.issues_left]
      decide
    exact fun hmem => (List.nodup_append.mp hnodup).2.2 op hmem op List.mem_cons_self rfl
  have hlacks : s.completed.contains op = false := by
    by_contra hcontains
    exact hnew (hvouched.issued op (by simpa using hcontains))
  have hacquires : ∀ e ∈ [Event.issued st ⟨id, op, s.generation⟩], e.acquires id = false := by
    simp [Event.acquires]
  refine h.replaces hrep (by simp [Event.slot?]) ?_ ?_ ?_ fun _ => ?_
  · rw [htokens.nodup_iff, List.nodup_cons]
    exact ⟨fun hmem => hnew (h.belongs_of_slot hmem hrep.old).mem_issues, h.nodup⟩
  · intro t hmem hid
    rcases List.mem_cons.mp (htokens.mem_iff.mp hmem) with rfl | hmem
    · exact absurd rfl hid
    · exact hmem
  · intro t hmem hid
    rcases List.mem_cons.mp (htokens.mem_iff.mp hmem) with rfl | hmem
    · refine ⟨huse, rfl, hlacks, ?_⟩
      rw [since_append hacquires, hop]
      exact List.mem_append_right _ List.mem_cons_self
    · subst hid
      have hbelongs := h.belongs_of_slot hmem hrep.old
      exact hbelongs.append hacquires huse rfl hbelongs.lacks
  · exact hvouched.append hacquires (by simp [Event.completes?]) (by simp [Event.isUncounted])
      rfl rfl

/-- A mark keeps the `Ledger`: the occupant has completed everything, so no token of its own is
left. -/
private theorem Ledger.settle {released : Bool} (hc : p.Chronicle es) (h : p.Ledger es)
    (hmark : p.table.markCheckpointDone id = .ok (p'.table, released))
    (hplaces : p.places.Perm (⟨id, [], 3, none⟩ :: p'.places))
    (htokens : p'.tokens.Perm p.tokens) : p'.Ledger (es ++ [.checkpointed id released]) := by
  obtain ⟨s, hreleased, hrep⟩ := Table.markCheckpointDone_ok hmark
  have hfits := hc.fits (hplaces.mem_iff.mpr List.mem_cons_self) hrep.old
  refine h.replaces hrep (by simp [Event.slot?]) (htokens.nodup_iff.mpr h.nodup)
    (fun t hmem _ => htokens.mem_iff.mp hmem) (fun t hmem hid => ?_) fun huse => ?_
  · subst hid
    -- The occupant has completed everything, so no token of its own is left.
    have hlacks := (h.belongs_of_slot (htokens.mem_iff.mp hmem) hrep.old).lacks
    rw [hfits.passed _ (Nat.lt_succ_of_le t.operation.stage.index_le)] at hlacks
    cases hlacks
  · cases hdrained : s.mark.isDrained with
    | true =>
      rw [Slot.settle_of_drained (s := s.mark) hfits.inUse hdrained] at huse
      cases huse
    | false =>
      rw [Slot.settle_of_not_drained hdrained]
      exact (h.vouched id s hrep.old hfits.inUse).append (by simp [Event.acquires])
        (by simp [Event.completes?]) (by simp [Event.isUncounted]) rfl rfl

/-- A completion with a token is noted for the occupant to which it `Belongs`. -/
theorem Ledger.completed {t : Token} {v : Table.Verdict} (hc : p.Chronicle es) (h : p.Ledger es)
    (hreport : p.table.recordCompletion t.writeId t.operation (some t.generation) = (p'.table, v))
    (hmem : t ∈ p.tokens) :
    ∃ s, t.Belongs es s ∧ v = .ofSlot s t.operation ∧
      Table.Replaces p.table p'.table t.writeId s (s.complete t.operation) := by
  obtain ⟨s, hs, hbelongs⟩ := h.belongs t hmem
  have haccepts : s.accepts (some t.generation) = true := by
    simp [Slot.accepts, hbelongs.inUse, hbelongs.generation_eq]
  rcases Table.recordCompletion_cases hreport with ⟨-, -, -, -, hrefused⟩ |
    ⟨s', -, hnew, rfl, hrep⟩
  · have := hrefused s hs haccepts
    rw [hbelongs.lacks] at this
    cases this
  · obtain rfl : s = s' := by
      have := hrep.old
      rwa [hs, Option.some.injEq] at this
    -- Not all was complete before, so the slot is not marked yet and is not released now.
    have hkeeps : (s.complete t.operation).isDrained = false := by
      simp [Slot.isDrained, Slot.complete, hc.unmarked hs hbelongs.inUse hnew]
    rw [Slot.settle_of_not_drained hkeeps] at hrep
    exact ⟨s, hbelongs, rfl, hrep⟩

/-- A completion keeps the `Ledger`: it uses up the token, and the operation is one that was
issued. -/
private theorem Ledger.complete {t : Token} {v : Table.Verdict} (hc : p.Chronicle es)
    (h : p.Ledger es)
    (hreport : p.table.recordCompletion t.writeId t.operation (some t.generation) = (p'.table, v))
    (htokens : p.tokens.Perm (t :: p'.tokens)) :
    p'.Ledger (es ++ [.reported t.writeId t.operation (some t.generation) v]) := by
  have hmem : t ∈ p.tokens := htokens.mem_iff.mpr List.mem_cons_self
  have hnodup := htokens.nodup_iff.mp h.nodup
  rw [List.nodup_cons] at hnodup
  obtain ⟨s, hbelongs, rfl, hrep⟩ := h.completed hc hreport hmem
  have huse := hbelongs.inUse
  have hvouched := h.vouched _ s hrep.old huse
  have hacquires : ∀ e ∈ [Event.reported t.writeId t.operation (some t.generation)
      (.ofSlot s t.operation)], e.acquires t.writeId = false := by
    simp [Event.acquires]
  have hpending := (hc.occupied _ s hrep.old huse).pendingIo_pos hbelongs.mem_issues hbelongs.lacks
    hvouched.issued
  refine h.replaces hrep (by simp [Event.slot?]) hnodup.2
    (fun t' hmem' _ => htokens.mem_iff.mpr (List.mem_cons_of_mem _ hmem'))
    (fun t' hmem' hid => ?_) fun _ => ⟨fun op hop => ?_, ?_, ?_⟩
  · have hbelongs' := h.belongs_of_slot (s := s)
      (htokens.mem_iff.mpr (List.mem_cons_of_mem _ hmem')) (by rw [hid]; exact hrep.old)
    refine hbelongs'.append (hid ▸ hacquires) huse rfl ?_
    -- Another token for the same operation would be the same token.
    have hne : t'.operation ≠ t.operation := fun heq =>
      hnodup.1 (hbelongs.eq hbelongs' hid heq ▸ hmem')
    simp [Slot.complete, hbelongs'.lacks, hne]
  · simp only [Slot.complete, OpSet.contains_insert, Bool.or_eq_true, decide_eq_true_eq] at hop
    rw [since_append hacquires, issues_append]
    refine List.mem_append_left _ ?_
    rcases hop with hop | rfl
    · exact hvouched.issued op hop
    · exact hbelongs.mem_issues
  · -- The operation itself was outstanding, so the report was counted.
    have hne : s.pendingIo ≠ 0 := by omega
    rw [since_append hacquires, uncounted_append, hvouched.uncounted_eq]
    simp [uncounted, Event.isUncounted, Table.Verdict.ofSlot, hne]
  · rw [since_append hacquires, backed_concat]
    refine ⟨hvouched.backed, fun op generation v heq hv => ?_⟩
    obtain ⟨-, rfl, rfl, rfl⟩ := Event.reported.inj heq
    refine ⟨by rw [← hbelongs.generation_eq]; rfl, ?_⟩
    have htoken : (⟨t.writeId, t.operation, s.generation⟩ : Token) = t := by
      rw [hbelongs.generation_eq]
    rw [show (s.complete t.operation).generation = s.generation from rfl, htoken]
    exact hbelongs.issued

/-- An entry without a report by write id keeps the `Ledger`: one case for each kind of entry. -/
theorem Entry.ledger (hentry : p.Entry a p' es') (ha : ∀ id op, a ≠ .report id op)
    (hc : p.Chronicle es) (h : p.Ledger es) : p'.Ledger (es ++ es') := by
  cases hentry with
  | idle hes hslots hplaces htokens => exact h.quiet hes hslots htokens.subperm
  | lose hes hslots hplaces htokens => exact h.quiet hes hslots htokens
  | claim hacquire hplaces htokens => exact h.claim hacquire htokens
  | issue hop hissue hplaces hplaces' htokens => exact h.issue hc hop hissue hplaces htokens
  | progress hes hslots hplaces hplaces' hpassed htokens => exact h.quiet hes hslots htokens.subperm
  | settle hmark hplaces htokens => exact h.settle hc hmark hplaces htokens
  | report hreport hplaces htokens =>
    rcases htokens with ⟨rfl, -⟩ | ⟨t, -, rfl, rfl, rfl, htokens⟩
    · exact absurd rfl (ha _ _)
    · exact h.complete hc hreport htokens

/-- Without reports by write id, tokens belong to the occupants of their slots in every run
(`Ledger`). -/
theorem Run.ledger {c : Config} {as : List Journal.Action} (h : Run c as p es)
    (has : ∀ id op, .report id op ∉ as) : p.Ledger es := by
  induction h with
  | start =>
    refine ⟨List.nodup_nil, nofun, fun i s hs huse => ?_⟩
    rw [Table.inUse_of_create _ hs] at huse
    exact nomatch huse
  | @move as p p' es es' a hrun hmove ih =>
    have hold := ih fun id op hmem => has id op (List.mem_append_left _ hmem)
    refine (hmove.entry hrun.suited).ledger ?_ hrun.chronicle hold
    -- The action of this step is none of the reports that `has` excludes.
    rintro id op rfl
    exact has id op (List.mem_append_right _ List.mem_cons_self)

end Pipeline

end WriteAhead
