import WriteAhead.Proofs.Journal.Ordering
import WriteAhead.Proofs.Journal.Release

/-!
# What is outstanding

The count of outstanding operations of a slot goes up when an operation is put on record, down when
it is reported complete, and nothing else ties the two together. When every completion is reported
with its token, the count is the number of tokens of the occupant that were not completed. These are
all of one stage, since an operation is put on record only after all operations of the earlier
stages were reported. So no report is refused, none comes to an idle count, and the mark of the last
worker always finds the count at zero.

## Key results

- `Pipeline.Run.forall_occupants`: what every operation on a slot keeps holds of all occupants
- `Pipeline.Run.reports_accepted`: with tokens alone every report is accepted and releases nothing
- `Journal.Run.accounted`: the count is that of the tokens that were not completed
-/

namespace WriteAhead

variable {id : WriteId} {es es' : List Event} {s s' : Slot}

/-! ## Refused reports -/

namespace Table

variable {t t' : Table}

/-- How many reports were refused, for no current occupant and as duplicates. -/
def refusals (t : Table) : Nat × Nat := (t.stale, t.duplicate)

/-- A `tryRelease` is counted neither as stale nor as duplicate. -/
theorem refusals_tryRelease (t : Table) (id : WriteId) :
    (t.tryRelease id).1.refusals = t.refusals := by
  unfold tryRelease
  split
  · rfl
  · split <;> rfl

/-- An `acquire` is no report, so it counts none as refused. -/
theorem refusals_acquire {g : Generation} (h : t.acquire id = .granted t' g) :
    t'.refusals = t.refusals := by
  unfold acquire at h
  split at h
  · exact nomatch h
  · split at h
    · exact nomatch h
    · split at h
      · exact nomatch h
      · obtain ⟨rfl, -⟩ := Claim.granted.inj h
        rfl

/-- A `recordIssue` is no report, so it counts none as refused. -/
theorem refusals_recordIssue {g : Generation} (h : t.recordIssue id = .ok (t', g)) :
    t'.refusals = t.refusals := by
  unfold recordIssue at h
  split at h
  · exact nomatch h
  · split at h
    · exact nomatch h
    · split at h
      · exact nomatch h
      · obtain ⟨rfl, -⟩ := Prod.mk.inj (Except.ok.inj h)
        rfl

/-- A `markCheckpointDone` is no report, so it counts none as refused. -/
theorem refusals_markCheckpointDone {released : Bool}
    (h : t.markCheckpointDone id = .ok (t', released)) : t'.refusals = t.refusals := by
  unfold markCheckpointDone at h
  split at h
  · exact nomatch h
  · have heq := refusals_tryRelease (t.modify id fun s => { s with checkpointDone := true }) id
    rwa [Except.ok.inj h] at heq

/-- An accepted report is not counted in `refusals`. -/
theorem refusals_recordCompletion {op : Operation} {g : Option Generation} {v : Verdict}
    (h : t.recordCompletion id op g = (t', v)) (hv : v.isAccepted = true) :
    t'.refusals = t.refusals := by
  unfold recordCompletion at h
  split at h
  · obtain ⟨-, rfl⟩ := Prod.mk.inj h
    exact nomatch hv
  · split at h
    · obtain ⟨-, rfl⟩ := Prod.mk.inj h
      exact nomatch hv
    · split at h
      · obtain ⟨-, rfl⟩ := Prod.mk.inj h
        exact nomatch hv
      · have heq := refusals_tryRelease (t.modify id fun s =>
          { s with completed := s.completed.insert op, pendingIo := s.pendingIo - 1 }) id
        generalize Table.tryRelease _ id = r at h heq
        obtain ⟨rfl, -⟩ := Prod.mk.inj h
        exact heq

end Table

/-! ## Tokens that were not completed -/

namespace Event

/-- The token of an operation that an event puts on record for a write. -/
def token? (id : WriteId) : Event → Option Token
  | .issued _ t => if t.writeId = id then some t else none
  | _ => none

/-- Whether an event is the completion of a token. -/
def completes (t : Token) : Event → Bool
  | .reported id op (some g) _ => id == t.writeId && op == t.operation && g == t.generation
  | _ => false

/-- The operation that an event issues (`issues?`) is that of the token that it makes (`token?`). -/
theorem issues?_eq_map (id : WriteId) (e : Event) :
    e.issues? id = (e.token? id).map (·.operation) := by
  cases e with
  | issued s t => simp only [issues?, token?]; split <;> rfl
  | _ => rfl

end Event

/-- The tokens that were made for a write. -/
def issuedTokens (id : WriteId) (es : List Event) : List Token := es.filterMap (Event.token? id)

/-- The tokens that were made for a write and not completed. -/
def uncompleted (id : WriteId) (es : List Event) : List Token :=
  (issuedTokens id es).filter fun t => !es.any (·.completes t)

/-- The operations on record for a write are those of its tokens, `issuedTokens`. -/
theorem issues_eq_map (id : WriteId) (es : List Event) :
    issues id es = (issuedTokens id es).map (·.operation) := by
  rw [issues, issuedTokens, List.map_filterMap]
  exact congrArg (List.filterMap · es) (funext (Event.issues?_eq_map id))

theorem issuedTokens_append :
    issuedTokens id (es ++ es') = issuedTokens id es ++ issuedTokens id es' :=
  List.filterMap_append

/-- Events that put nothing on record have no `issuedTokens`. -/
theorem issuedTokens_eq_nil (h : ∀ e ∈ es, e.issues? id = none) : issuedTokens id es = [] := by
  refine List.filterMap_eq_nil_iff.mpr fun e he => ?_
  have := h e he
  rwa [Event.issues?_eq_map, Option.map_eq_none_iff] at this

/-! ## Invariants of occupants -/

namespace Pipeline

variable {p p' : Pipeline} {a : Journal.Action}

/-- What is told of an occupant holds from its claim on and is kept by every operation on its
slot. -/
structure IsKept (P : List Event → WriteId → Slot → Prop) : Prop where
  claim (es : List Event) (id : WriteId) (s : Slot) :
    P (es ++ [.acquired id s.occupy.generation]) id s.occupy
  inert {es es' : List Event} {id : WriteId} {s s' : Slot} (h : P es id s)
    (hinert : ∀ e ∈ es', e.IsInert id) (hgen : s'.generation = s.generation)
    (hcompleted : s'.completed = s.completed) : P (es ++ es') id s'
  issue {es : List Event} {id : WriteId} {s : Slot} {op : Operation} {left : List Operation}
    (h : P es id s) (hfits : Place.Fits ⟨id, op :: left, op.stage.index, none⟩ es s) :
    P (es ++ [.issued op.stage ⟨id, op, s.generation⟩]) id s.issue
  report {es : List Event} {id : WriteId} {s : Slot} {op : Operation} {g : Option Generation}
    (h : P es id s) (hnew : s.completed.contains op = false) :
    P (es ++ [.reported id op g (.ofSlot s op)]) id (s.complete op)

/-- An entry that replaces one slot (`Table.Replaces`) keeps what is told of the other occupants, to
which its events are inert. -/
private theorem IsKept.replaces {P : List Event → WriteId → Slot → Prop} (hP : IsKept P)
    (hrep : Table.Replaces p.table p'.table id s s') (hes : ∀ e ∈ es', e.slot? = some id)
    (h : ∀ id s, p.table.slot? id = some s → s.inUse = true → P es id s)
    (hself : s'.inUse = true → P (es ++ es') id s') :
    ∀ id s, p'.table.slot? id = some s → s.inUse = true → P (es ++ es') id s := by
  intro i u hu huse
  by_cases hi : i = id
  · subst hi
    rw [hrep.slot?_self, Option.some.injEq] at hu
    subst hu
    exact hself huse
  · rw [hrep.slot?_of_ne hi] at hu
    have hinert : ∀ e ∈ es', e.IsInert i := fun e he => Event.isInert_of_slot?_eq_some (hes e he) hi
    exact hP.inert (h i u hu huse) hinert rfl rfl

/-- An `Entry` keeps what is told of the occupants, if each operation on a slot does (`IsKept`). -/
theorem Entry.forall_occupants {P : List Event → WriteId → Slot → Prop} (hP : IsKept P)
    (hentry : p.Entry a p' es') (hc : p.Chronicle es)
    (h : ∀ id s, p.table.slot? id = some s → s.inUse = true → P es id s) :
    ∀ id s, p'.table.slot? id = some s → s.inUse = true → P (es ++ es') id s := by
  have hquiet (hinert : ∀ i, ∀ e ∈ es', e.IsInert i) (hslots : p'.table.slots = p.table.slots) :
      ∀ id s, p'.table.slot? id = some s → s.inUse = true → P (es ++ es') id s := by
    intro i u hu huse
    rw [slot?_of_slots_eq hslots] at hu
    exact hP.inert (h i u hu huse) (hinert i) rfl rfl
  cases hentry with
  | idle hes hslots | lose hes hslots | progress hes hslots =>
    exact hquiet (fun i e he => Event.isInert_of_slot?_eq_none (hes e he)) hslots
  | claim hacquire =>
    obtain ⟨s, -, -, rfl, hrep⟩ := Table.acquire_granted hacquire
    exact hP.replaces hrep (by simp [Event.slot?]) h fun _ => hP.claim es _ s
  | issue hop hissue hplaces =>
    subst hop
    obtain ⟨s, huse, rfl, hrep⟩ := Table.recordIssue_ok hissue
    have hfits := hc.fits (hplaces.mem_iff.mpr List.mem_cons_self) hrep.old
    exact hP.replaces hrep (by simp [Event.slot?]) h fun _ =>
      hP.issue (h _ s hrep.old huse) hfits
  | @settle id released hmark hplaces =>
    obtain ⟨s, hreleased, hrep⟩ := Table.markCheckpointDone_ok hmark
    have huse := (hc.fits (hplaces.mem_iff.mpr List.mem_cons_self) hrep.old).inUse
    refine hP.replaces hrep (by simp [Event.slot?]) h fun hstays => ?_
    -- The occupant is still there, so the mark has not released the slot.
    cases hdrained : s.mark.isDrained with
    | true =>
      rw [Slot.settle_of_drained (s := s.mark) huse hdrained] at hstays
      cases hstays
    | false =>
      rw [hdrained, Bool.and_false] at hreleased
      subst hreleased
      rw [Slot.settle_of_not_drained hdrained]
      exact hP.inert (h _ s hrep.old huse) (by simp [Event.isInert_of_not_released]) rfl rfl
  | @report id op g v hreport =>
    rcases Table.recordCompletion_cases hreport with ⟨hrefused, hslots, -⟩ |
      ⟨s, haccepts, hnew, rfl, hrep⟩
    · exact hquiet (by simp [Event.isInert_of_refused hrefused]) hslots
    · -- A marked occupant lacks no operation, so the report does not release the slot.
      have huse := Slot.inUse_of_accepts haccepts
      have hkeeps : (s.complete op).isDrained = false := by
        simp [Slot.isDrained, Slot.complete, hc.unmarked hrep.old huse hnew]
      rw [Slot.settle_of_not_drained hkeeps] at hrep
      exact hP.replaces hrep (by simp [Event.slot?]) h fun _ =>
        hP.report (h _ s hrep.old huse) hnew

/-- What every operation on a slot keeps (`IsKept`) holds of all occupants along every run. -/
theorem Run.forall_occupants {P : List Event → WriteId → Slot → Prop} (hP : IsKept P) {c : Config}
    {as : List Journal.Action} (h : Run c as p es) :
    ∀ id s, p.table.slot? id = some s → s.inUse = true → P es id s := by
  induction h with
  | start =>
    -- A new table has no occupants.
    intro i s hs huse
    rw [Table.inUse_of_create _ hs] at huse
    exact nomatch huse
  | move hrun hmove ih => exact (hmove.entry hrun.suited).forall_occupants hP hrun.chronicle ih

/-! ## Operations of one stage -/

/-- The tokens of an occupant are of its generation, and the operations that are on record and not
reported complete are all of one stage. -/
structure Staged (es : List Event) (id : WriteId) (s : Slot) : Prop where
  generation : ∀ t ∈ issuedTokens id (since id es), t.writeId = id ∧ t.generation = s.generation
  stage : ∃ st : Stage,
    ∀ op ∈ issues id (since id es), op.stage = st ∨ s.completed.contains op = true

/-- Operations are put on record in the order of `Operation.all`, stage after stage, so what is on
record comes before what is left. -/
private theorem index_le_of_issues {op : Operation} {left before : List Operation}
    (h : before ++ op :: left = Operation.all) : ∀ o ∈ before, o.stage.index ≤ op.stage.index := by
  have hsorted : Operation.all.Pairwise fun o o' => o.stage.index ≤ o'.stage.index := by decide
  rw [← h, List.pairwise_append] at hsorted
  exact fun o ho => hsorted.2.2 o ho op List.mem_cons_self

/-- That the operations outstanding of an occupant are all of one stage, and its tokens of its
generation, is kept by every operation on a slot. -/
theorem isKept_staged : IsKept Staged where
  claim es id s := by
    refine ⟨?_, .metadata, ?_⟩ <;> rw [since_acquired] <;> exact nofun
  inert {es es' id s s'} h hinert hgen hcompleted := by
    have hsince : since id (es ++ es') = since id es ++ es' :=
      since_append fun e he => (hinert e he).acquires
    refine ⟨?_, ?_⟩
    · have hnone := issuedTokens_eq_nil fun e he => (hinert e he).issues?
      rw [hsince, issuedTokens_append, hnone, List.append_nil, hgen]
      exact h.generation
    · rw [issues_since_of_inert hinert, hcompleted]
      exact h.stage
  issue {es id s op left} h hfits := by
    have hsince : since id (es ++ [.issued op.stage ⟨id, op, s.generation⟩]) =
        since id es ++ [.issued op.stage ⟨id, op, s.generation⟩] :=
      since_append (by simp [Event.acquires])
    refine ⟨?_, op.stage, ?_⟩
    · rw [hsince, issuedTokens_append]
      intro t ht
      rcases List.mem_append.mp ht with ht | ht
      · exact h.generation t ht
      · obtain rfl : t = ⟨id, op, s.generation⟩ := by simpa [issuedTokens, Event.token?] using ht
        exact ⟨rfl, rfl⟩
    · -- What was on record before is of an earlier stage, and reported, or of this one.
      rw [hsince, issues_append]
      intro o ho
      rcases List.mem_append.mp ho with ho | ho
      · rcases Nat.lt_or_eq_of_le (index_le_of_issues hfits.issues_left o ho) with hlt | heq
        · exact .inr (hfits.passed o hlt)
        · exact .inl (Stage.index_inj heq)
      · obtain rfl : o = op := by simpa [issues, Event.issues?] using ho
        exact .inl rfl
  report {es id s op g} h hnew := by
    have hsince : since id (es ++ [.reported id op g (.ofSlot s op)]) =
        since id es ++ [.reported id op g (.ofSlot s op)] := since_append (by simp [Event.acquires])
    obtain ⟨st, hst⟩ := h.stage
    refine ⟨?_, st, ?_⟩
    · have hnone : issuedTokens id [.reported id op g (.ofSlot s op)] = [] :=
        issuedTokens_eq_nil (by simp [Event.issues?])
      rw [hsince, issuedTokens_append, hnone, List.append_nil]
      exact h.generation
    · have hnone : issues id [.reported id op g (.ofSlot s op)] = [] := by
        simp [issues, Event.issues?]
      rw [hsince, issues_append, hnone, List.append_nil]
      intro o ho
      refine (hst o ho).imp_right fun hcontains => ?_
      simp [Slot.complete, hcontains]

/-! ## Reports with tokens alone -/

/-- A completion with a token is `accepted`, was counted as outstanding, and does not release the
slot. -/
theorem Ledger.completed_accepted {t : Token} {v : Table.Verdict} (hc : p.Chronicle es)
    (h : p.Ledger es)
    (hreport : p.table.recordCompletion t.writeId t.operation (some t.generation) = (p'.table, v))
    (hmem : t ∈ p.tokens) : ∃ joined s, v = .accepted joined false false ∧
      p'.table.slot? t.writeId = some s ∧ s.inUse = true := by
  obtain ⟨s, hbelongs, rfl, hrep⟩ := h.completed hc hreport hmem
  -- The operation of the token is on record and not noted as complete, so it is counted, and an
  -- occupant that lacks it is not marked.
  have hvouched := h.vouched _ s hrep.old hbelongs.inUse
  have hpending := (hc.occupied _ s hrep.old hbelongs.inUse).pendingIo_pos hbelongs.mem_issues
    hbelongs.lacks hvouched.issued
  have hunmarked := hc.unmarked hrep.old hbelongs.inUse hbelongs.lacks
  have hne : s.pendingIo ≠ 0 := by omega
  refine ⟨(s.completed.insert t.operation).containsAll t.operation.stage.join,
    s.complete t.operation, ?_, hrep.slot?_self, hbelongs.inUse⟩
  simp [Table.Verdict.ofSlot, Slot.isDrained, Slot.complete, hunmarked, hne]

/-- With tokens alone every report is `accepted`, none comes to an idle count and none releases a
slot. -/
theorem Run.reports_accepted {c : Config} {as : List Journal.Action} (h : Run c as p es)
    (has : ∀ id op, .report id op ∉ as) {op : Operation} {g : Option Generation}
    {v : Table.Verdict} (hmem : .reported id op g v ∈ es) :
    ∃ joined, v = .accepted joined false false := by
  induction h with
  | start hes => exact absurd (hes _ hmem) nofun
  | @move as p p' es es' a hrun hmove ih =>
    have hold := fun id op hmem => has id op (List.mem_append_left _ hmem)
    rcases List.mem_append.mp hmem with hmem | hmem
    · exact ih hold hmem
    · -- Of the entries only a report has such an event.
      have hentry := hmove.entry hrun.suited
      cases hentry with
      | idle hes | lose hes | progress hes => exact nomatch hes _ hmem
      | claim | issue | settle => simp at hmem
      | report hreport hplaces htokens =>
        obtain ⟨rfl, rfl, rfl, rfl⟩ := Event.reported.inj (List.mem_singleton.mp hmem)
        rcases htokens with ⟨rfl, -⟩ | ⟨t, -, rfl, rfl, rfl, htokens⟩
        · -- A report without a token is one that the run does not have.
          exact absurd (List.mem_append_right _ List.mem_cons_self) (has _ _)
        · obtain ⟨joined, -, hv, -⟩ := (hrun.ledger hold).completed_accepted hrun.chronicle hreport
            (htokens.mem_iff.mpr List.mem_cons_self)
          exact ⟨joined, hv⟩

/-- A worker at `marking` holds its write at the place behind all three joins. -/
theorem mem_places_of_marking (hsuits : ∀ st, Suits st (p.workers.get st)) {st : Stage}
    (hphase : p.workers.get st = .marking id) : ⟨id, [], 3, none⟩ ∈ p.places := by
  have hlast := hsuits st
  rw [hphase] at hlast
  obtain ⟨hafter, hindex⟩ := Stage.after_of_last hlast
  refine mem_places_of_phase (s := st) ?_
  rw [hphase, Phase.place?, hafter, hindex]

/-- Nothing is outstanding when the write of an occupant that is `Vouched` for is marked, so the
mark frees the slot. -/
theorem Ledger.released {t : Table} {released : Bool} (h : p.Ledger es) (hc : p.Chronicle es)
    (hmem : ⟨id, [], 3, none⟩ ∈ p.places)
    (hmark : p.table.markCheckpointDone id = .ok (t, released)) :
    released = true ∧ ∃ s s', p.table.slot? id = some s ∧ s.inUse = true ∧
      t.slot? id = some s' ∧ s'.inUse = false := by
  obtain ⟨s, hrep, huse, hreleased, hiff⟩ := hc.released_iff hmem rfl rfl hmark
  have hbalanced : Balanced id (since id es) :=
    (hc.occupied id s hrep.old huse).balanced_iff.mpr (h.vouched id s hrep.old huse).uncounted_eq
  have htrue := hiff.mpr hbalanced
  have hdrained : s.mark.isDrained = true := by rw [← hreleased, htrue]
  rw [Slot.settle_of_drained (s := s.mark) huse hdrained] at hrep
  exact ⟨htrue, s, _, hrep.old, huse, hrep.slot?_self, rfl⟩

/-- With tokens alone every mark frees the slot: all `checkpointed` events say that they released
it. -/
theorem Run.marks_released {c : Config} {as : List Journal.Action} (h : Run c as p es)
    (has : ∀ id op, .report id op ∉ as) {released : Bool}
    (hmem : .checkpointed id released ∈ es) : released = true := by
  -- The ledger holds before the mark, since there was no report without a token.
  induction h with
  | start hes => exact absurd (hes _ hmem) nofun
  | @move as p p' es es' a hrun hmove ih =>
    have hold := fun id op hmem => has id op (List.mem_append_left _ hmem)
    rcases List.mem_append.mp hmem with hmem | hmem
    · exact ih hold hmem
    · obtain ⟨s, hphase, hmark⟩ := hmove.checkpointed hmem
      exact ((hrun.ledger hold).released hrun.chronicle
        (mem_places_of_marking hrun.suited hphase) hmark).1

/-- A `Move` whose reports are accepted counts none as refused. -/
theorem Move.refusals_eq (hmove : p.Move a es' p')
    (h : ∀ id op g v, .reported id op g v ∈ es' → v.isAccepted = true) :
    p'.table.refusals = p.table.refusals := by
  cases hmove with
  | acquire hacquire => exact Table.refusals_acquire hacquire
  | record hphase hissue => exact Table.refusals_recordIssue hissue
  | mark hphase hmark => exact Table.refusals_markCheckpointDone hmark
  | complete hmem hreport =>
    exact Table.refusals_recordCompletion hreport (h _ _ _ _ List.mem_cons_self)
  | report hreport =>
    exact Table.refusals_recordCompletion hreport (h _ _ _ _ List.mem_cons_self)
  | _ => rfl

/-- With tokens alone no report is ever refused: `refusals` stays 0. -/
theorem Run.refusals_eq_zero {c : Config} {as : List Journal.Action} (h : Run c as p es)
    (has : ∀ id op, .report id op ∉ as) : p.table.refusals = (0, 0) := by
  induction h with
  | start => rfl
  | @move as p p' es es' a hrun hmove ih =>
    rw [hmove.refusals_eq fun id op g v hmem => ?_]
    · exact ih fun id op hmem => has id op (List.mem_append_left _ hmem)
    · obtain ⟨joined, rfl⟩ := (hrun.move hmove).reports_accepted has (List.mem_append_right _ hmem)
      rfl

end Pipeline

/-! ## The count -/

/-- What is outstanding of an occupant that is `Vouched` for are the operations that are on record
and not noted as complete. -/
theorem Vouched.pendingIo_eq (h : Vouched es id s) (hoccupancy : Occupancy es id s) :
    s.pendingIo = ((issues id (since id es)).filter (!s.completed.contains ·)).length := by
  have hnodup : (issues id (since id es)).Nodup :=
    List.Nodup.sublist hoccupancy.issues_prefix.sublist (by decide)
  -- Those that are noted as complete are all on record.
  have hcompleted : ((issues id (since id es)).filter (s.completed.contains ·)).Perm
      s.completed.toList := by
    have htoList : s.completed.toList.Nodup :=
      List.Nodup.sublist List.filter_sublist (by decide : Operation.all.Nodup)
    refine (List.perm_ext_iff_of_nodup (hnodup.filter _) htoList).mpr ?_
    intro op
    simp only [List.mem_filter, OpSet.toList, Operation.mem_all, true_and, and_iff_right_iff_imp]
    exact h.issued op
  have hsplit := List.length_eq_length_filter_add (l := issues id (since id es))
    (s.completed.contains ·)
  have hpending := hoccupancy.pending_eq
  rw [h.uncounted_eq, OpSet.size, ← hcompleted.length_eq] at hpending
  omega

/-- The token of an operation on record is completed exactly if the operation is noted in
`completed`, when every report is accepted. -/
theorem Vouched.any_completes {t : Token} (h : Vouched es id s) (hoccupancy : Occupancy es id s)
    (hid : t.writeId = id) (hgen : t.generation = s.generation)
    (haccepted : ∀ op g v, .reported id op g v ∈ since id es → v.isAccepted = true) :
    (since id es).any (·.completes t) = s.completed.contains t.operation := by
  rw [Bool.eq_iff_iff, hoccupancy.contains_iff, List.any_eq_true, completions, List.mem_filterMap]
  constructor
  · -- No report is refused, so the completion of the token was noted.
    rintro ⟨e, he, hcompletes⟩
    unfold Event.completes at hcompletes
    split at hcompletes
    · simp only [Bool.and_eq_true, beq_iff_eq] at hcompletes
      obtain ⟨⟨rfl, rfl⟩, rfl⟩ := hcompletes
      subst hid
      exact ⟨_, he, by simp [Event.completes?, haccepted _ _ _ he]⟩
    · cases hcompletes
  · -- What was noted was reported with the token of this occupant.
    rintro ⟨e, he, hcompletes⟩
    unfold Event.completes? at hcompletes
    split at hcompletes
    · rename_i i op g v
      obtain ⟨⟨rfl, hv⟩, hop⟩ := Option.ite_none_right_eq_some.mp hcompletes
      obtain rfl := Option.some.inj hop
      obtain ⟨before, after, hsplit⟩ := List.append_of_mem he
      obtain ⟨rfl, -⟩ := h.backed before t.operation g v ⟨after, by simp [hsplit]⟩ hv
      exact ⟨_, he, by simp [Event.completes, hid, hgen]⟩
    · cases hcompletes

/-- The tokens that were not completed (`uncompleted`) are those of what is outstanding. -/
theorem Vouched.uncompleted_eq (h : Vouched es id s) (hoccupancy : Occupancy es id s)
    (hstaged : Pipeline.Staged es id s)
    (haccepted : ∀ op g v, .reported id op g v ∈ since id es → v.isAccepted = true) :
    (uncompleted id (since id es)).map (·.operation) =
      (issues id (since id es)).filter (!s.completed.contains ·) := by
  -- The tokens are kept and lost one by one with their operations.
  rw [issues_eq_map, List.filter_map, uncompleted]
  congr 1
  refine List.filter_congr fun t ht => ?_
  obtain ⟨hid, hgen⟩ := hstaged.generation t ht
  rw [h.any_completes hoccupancy hid hgen haccepted]
  rfl

/-- No stage has more than four operations, so no more than four are outstanding of an occupant that
is `Staged`. -/
theorem Pipeline.Staged.length_le (h : Staged es id s) (hoccupancy : Occupancy es id s) :
    ((issues id (since id es)).filter (!s.completed.contains ·)).length ≤ 4 := by
  obtain ⟨st, hst⟩ := h.stage
  have hnodup : (issues id (since id es)).Nodup :=
    List.Nodup.sublist hoccupancy.issues_prefix.sublist (by decide)
  -- What is on record is without duplicates, so it is enough that it is all of the stage.
  have hsub : (issues id (since id es)).filter (!s.completed.contains ·) ⊆ st.operations := by
    intro op hop
    obtain ⟨hissued, hlacks⟩ := List.mem_filter.mp hop
    refine Stage.mem_operations.mpr ((hst op hissued).resolve_right fun hcontains => ?_)
    rw [hcontains] at hlacks
    exact nomatch hlacks
  have hoperations : st.operations.length ≤ 4 := by cases st <;> decide
  exact Nat.le_trans (List.Nodup.subperm (hnodup.filter _) hsub).length_le hoperations

/-- The count of an occupant that is `Vouched` for is that of its tokens that were not completed. -/
theorem Vouched.pendingIo_uncompleted (h : Vouched es id s) (hoccupancy : Occupancy es id s)
    (hstaged : Pipeline.Staged es id s)
    (haccepted : ∀ op g v, .reported id op g v ∈ since id es → v.isAccepted = true) :
    s.pendingIo = (uncompleted id (since id es)).length ∧ s.pendingIo ≤ 4 := by
  rw [h.pendingIo_eq hoccupancy]
  refine ⟨?_, hstaged.length_le hoccupancy⟩
  rw [← h.uncompleted_eq hoccupancy hstaged haccepted, List.length_map]

namespace Journal

variable {c : Config} {as : List Action} {j : Journal}

/-- The slots, the reports and the marks of a journal account for all that is outstanding. -/
structure Accounted (j : Journal) (es : List Event) : Prop where
  /-- The count of an occupant is the number of its tokens that were not completed, four at most. -/
  pending : ∀ id slot, j.table.table.slot? id = some slot → slot.inUse = true →
    slot.pendingIo = (uncompleted id (since id es)).length ∧ slot.pendingIo ≤ 4
  /-- The completion of a token is accepted and does not release the slot. -/
  completion : ∀ t ∈ j.outstanding, ∃ joined slot, (j.complete t).2 = .accepted joined false false ∧
    (j.complete t).1.table.table.slot? t.writeId = some slot ∧ slot.inUse = true
  /-- So was every completion so far. -/
  completions : ∀ id op g v, .reported id op g v ∈ es → ∃ joined, v = .accepted joined false false
  /-- No report was refused. -/
  refusals : j.table.table.stale = 0 ∧ j.table.table.duplicate = 0
  /-- The mark of a worker frees the slot, which was in use until then. -/
  mark : ∀ s id, (j.workers.get s).phase = .marking id → (j.mark s id).2 = [.checkpointed id true] ∧
    ∃ slot slot', j.table.table.slot? id = some slot ∧ slot.inUse = true ∧
      (j.mark s id).1.table.table.slot? id = some slot' ∧ slot'.inUse = false
  /-- So did every mark so far. -/
  marks : ∀ id released, .checkpointed id released ∈ es → released = true

/-- When operations are reported complete with their tokens only, the slots, the reports and the
marks account for all that is outstanding (`Accounted`), in every state that the journal can come
to. -/
theorem Run.accounted (hrun : Run c as j es) (hreports : ∀ id op, .report id op ∉ as) :
    j.Accounted es := by
  have hp := hrun.pipeline
  have hledger := hp.ledger hreports
  have hchronicle := hp.chronicle
  have hrefusals := Prod.mk.inj (hp.refusals_eq_zero hreports)
  refine ⟨fun id slot hslot huse => ?_, fun t ht => ?_, fun id op g v hmem => ?_, hrefusals,
    fun s id hphase => ?_, fun id released hmem => hp.marks_released hreports hmem⟩
  · have hoccupancy := hchronicle.occupied id slot hslot huse
    refine (hledger.vouched id slot hslot huse).pendingIo_uncompleted hoccupancy
      (hp.forall_occupants Pipeline.isKept_staged id slot hslot huse) fun op g v hmem => ?_
    obtain ⟨joined, rfl⟩ := hp.reports_accepted hreports (hoccupancy.since_subset hmem)
    rfl
  · have hreport : j.pipeline.table.recordCompletion t.writeId t.operation (some t.generation) =
        ((j.complete t).1.pipeline.table, (j.complete t).2) :=
      Table.Monitor.recordCompletion_table rfl
    exact hledger.completed_accepted hchronicle hreport (List.mem_append_left _ ht)
  · exact hp.reports_accepted hreports hmem
  · -- The write is behind all joins, where nothing of it is outstanding.
    have hworker : j.pipeline.workers.get s = .marking id := by
      rw [workers_pipeline, hphase]
      rfl
    have hmem := Pipeline.mem_places_of_marking hp.suited hworker
    unfold mark
    split
    · rename_i m released hmark
      obtain ⟨rfl, hfreed⟩ := hledger.released hchronicle hmem
        (Table.Monitor.markCheckpointDone_table hmark)
      exact ⟨rfl, hfreed⟩
    · -- A write at a place has a slot, so the table does not fault.
      rename_i f hfault
      obtain ⟨slot, hslot, -⟩ := hchronicle.placed _ hmem
      have hnone := Table.Monitor.markCheckpointDone_error hfault
      exact absurd (hnone.symm.trans hslot) nofun

/-- The last worker is about to mark one write while another has two operations outstanding, one
token of its own is already completed, and one is still with the worker. -/
theorem accounted_of_two_outstanding :
    ∃ j es, Run { bufferSize := 1, maxRequests := 2 }
        (submission 0 0 ++ (Stage.all.flatMap (passage 0 1)).dropLast ++ submission 1 1 ++
          List.replicate 4 (.act (.worker .metadata)) ++ [.complete ⟨1, .writeData, 1⟩] ++
            List.replicate 3 (.act (.worker .metadata))) j es ∧
      j.table.table.slot? 1 = some ⟨true, 1, OpSet.empty.insert .writeData, 2, false⟩ ∧
      (j.workers.get .checkpoint).phase = .marking 0 ∧
      (uncompleted 1 (since 1 es)).length = 2 ∧
      (j.table.table.stale = 0 ∧ j.table.table.duplicate = 0) ∧
      (j.mark .checkpoint 0).2 = [.checkpointed 0 true] ∧
      ∃ joined, (j.complete ⟨1, .journalTxb, 1⟩).2 = .accepted joined false false := by
  have hrun : (trace? { bufferSize := 1, maxRequests := 2 }
      (submission 0 0 ++ (Stage.all.flatMap (passage 0 1)).dropLast ++ submission 1 1 ++
        List.replicate 4 (.act (.worker .metadata)) ++ [.complete ⟨1, .writeData, 1⟩] ++
          List.replicate 3 (.act (.worker .metadata)))).map
        (fun r => (r.1.table.table.slot? 1, (r.1.workers.get .checkpoint).phase,
          r.1.outstanding)) =
      some (some ⟨true, 1, (OpSet.empty.insert .writeData), 2, false⟩, .marking 0,
        [⟨1, .journalTxb, 1⟩]) := by decide +kernel
  obtain ⟨⟨j, es⟩, htrace, heq⟩ := Option.map_eq_some_iff.mp hrun
  obtain ⟨hslot, hphase, houtstanding⟩ := by simpa only [Prod.mk.injEq] using heq
  have hrun := Run.of_trace? htrace
  have hpassages (id : WriteId) (op : Operation) :
      .report id op ∉ (Stage.all.flatMap (passage 0 1)).dropLast := fun hmem => by
    simpa [passage] using List.dropLast_subset _ hmem
  have haccounted := Run.accounted hrun (by simp [submission, hpassages])
  obtain ⟨hpending, -⟩ := haccounted.pending 1 _ hslot rfl
  obtain ⟨joined, -, haccepted, -⟩ := haccounted.completion ⟨1, .journalTxb, 1⟩
    (by rw [houtstanding]; decide)
  exact ⟨j, es, hrun, hslot, hphase, hpending.symm, haccounted.refusals,
    (haccounted.mark .checkpoint 0 hphase).1, joined, haccepted⟩

end Journal

end WriteAhead
