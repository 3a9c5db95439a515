import Mathlib.Data.List.DropRight
import WriteAhead.Proofs.Table.Monitor

/-!
# The slots of a table account for the calls on it

Any calls can come to a table in any order: callers that sleep and are woken, issues, reports with
and without a generation, marks, a shutdown. `Effect` is what a step did to a slot, and the effects
of a run are the history of the table. From its last claim on, an occupied slot counts its issues
and its reports, and the step that leaves it marked with nothing outstanding frees it. So it is free
between two occupants, and its generation is the number of claims.

## Key results

- `Monitor.turn_of_step`: what a step can do
- `Monitor.effected_of_step`: what a step does to the slots
- `Monitor.Run.accounts`: a slot accounts for the effects on it
- `Monitor.Run.represents`: what holds of every table that calls can lead to
-/

namespace WriteAhead.Table

/-! ## Effects -/

/-- What a step does to the slot of a write. -/
inductive Effect where
  /-- The slot has a new occupant, of this generation. -/
  | claimed (id : WriteId) (generation : Generation)
  /-- An operation was put on record. -/
  | issued (id : WriteId)
  /-- An operation was noted as complete, with so many outstanding before. -/
  | completed (id : WriteId) (op : Operation) (found : Nat) (released : Bool)
  /-- The checkpoint stage is done with the occupant. -/
  | marked (id : WriteId) (released : Bool)
  deriving DecidableEq, Repr

namespace Effect

/-- The write whose slot an effect is on. -/
def slot : Effect → WriteId
  | claimed id _ | issued id | completed id _ _ _ | marked id _ => id

/-- Whether an effect is a claim on the slot of a write. -/
def claims (id : WriteId) : Effect → Bool
  | claimed i _ => i == id
  | _ => false

/-- Whether an effect puts an operation of a write on record. -/
def issues (id : WriteId) : Effect → Bool
  | issued i => i == id
  | _ => false

/-- Whether an operation of a write is noted as complete with none outstanding. -/
def isUnissued (id : WriteId) : Effect → Bool
  | completed i _ found _ => i == id && found == 0
  | _ => false

/-- Whether an effect releases the slot of a write. -/
def releases (id : WriteId) : Effect → Bool
  | completed i _ _ released | marked i released => i == id && released
  | _ => false

/-- What an effect does to a slot before the slot is released if nothing keeps its occupant. -/
def onSlot (id : WriteId) (s : Slot) : Effect → Slot
  | claimed i _ => if i = id then s.occupy else s
  | issued i => if i = id then s.issue else s
  | completed i op _ _ => if i = id then s.complete op else s
  | marked i _ => if i = id then s.mark else s

variable {e : Effect} {id : WriteId}

/-- An effect on another slot does not count as a claim in `Effect.claims`. -/
theorem claims_of_slot_ne (h : e.slot ≠ id) : e.claims id = false := by
  cases e <;> simp_all [slot, claims]

/-- An effect on another slot does not count as an issue in `Effect.issues`. -/
theorem issues_of_slot_ne (h : e.slot ≠ id) : e.issues id = false := by
  cases e <;> simp_all [slot, issues]

/-- An effect on another slot is no completion without an issue in `Effect.isUnissued`. -/
theorem isUnissued_of_slot_ne (h : e.slot ≠ id) : e.isUnissued id = false := by
  cases e <;> simp_all [slot, isUnissued]

/-- An effect on another slot does not release this one (`Effect.releases`). -/
theorem releases_of_slot_ne (h : e.slot ≠ id) : e.releases id = false := by
  cases e <;> simp_all [slot, releases]

end Effect

/-- What a step that has the effect `e?` makes of a table. -/
inductive Effected (t : Table) : Option Effect → Table → Prop where
  | nothing {t' : Table} (hslots : t'.slots = t.slots) (hflight : t'.inFlight = t.inFlight) :
      Effected t none t'
  | claimed {t' : Table} {id : WriteId} {s : Slot} (hfree : s.inUse = false)
      (hrep : Replaces t t' id s s.occupy) : Effected t (some (.claimed id s.occupy.generation)) t'
  | issued {t' : Table} {id : WriteId} {s : Slot} (huse : s.inUse = true)
      (hrep : Replaces t t' id s s.issue) : Effected t (some (.issued id)) t'
  | completed {t' : Table} {id : WriteId} {s : Slot} {op : Operation} (huse : s.inUse = true)
      (hnew : s.completed.contains op = false) (hrep : Replaces t t' id s (s.complete op).settle) :
      Effected t (some (.completed id op s.pendingIo (s.complete op).isDrained)) t'
  | marked {t' : Table} {id : WriteId} {s : Slot} (hrep : Replaces t t' id s s.mark.settle) :
      Effected t (some (.marked id (s.inUse && s.mark.isDrained))) t'

namespace Monitor

variable {κ : Type} [DecidableEq κ] {m m' : Monitor κ} {a : Action κ} {y : Yield}

/-- What the caller that takes a step wants. -/
def want? (m : Monitor κ) : Action κ → Option Want
  | .enter _ want => some want
  | .recheck k => m.waiters.wokenWant? k
  | _ => none

/-- How many operations of a write are outstanding. -/
def pendingIo (m : Monitor κ) (id : WriteId) : Nat := (m.table.slot? id).elim 0 (·.pendingIo)

/-- The effect of a step with its yield, if it has one. -/
def effect? (m : Monitor κ) (a : Action κ) : Yield → Option Effect
  | .reply (.acquired g) =>
    match m.want? a with
    | some (.slot id) => some (.claimed id g)
    | _ => none
  | .issued _ =>
    match a with
    | .issue id => some (.issued id)
    | _ => none
  | .verdict (.accepted _ _ released) =>
    match a with
    | .complete id op _ => some (.completed id op (m.pendingIo id) released)
    | _ => none
  | .marked released =>
    match a with
    | .mark id => some (.marked id released)
    | _ => none
  | _ => none

/-- What a step can do, with what it yields. -/
inductive Turn (m : Monitor κ) : Action κ → Yield → Monitor κ → Prop where
  /-- A caller looks, for the first time or once more. -/
  | visited {a : Action κ} {k : κ} {want : Want} {first : Bool} {r : Option Reply} {m' : Monitor κ}
      (hwant : m.want? a = some want) (hvisit : m.Visit k want first m' r) :
      Turn m a (.ofReply? r) m'
  | stirred (k : κ) : Turn m (.stir k) .nothing { m with waiters := m.waiters.stir k }
  | issued {id : WriteId} {g : Generation} {m' : Monitor κ}
      (hissue : m.recordIssue id = .ok (m', g)) : Turn m (.issue id) (.issued g) m'
  | unissued {id : WriteId} {f : Fault} (hfault : m.recordIssue id = .error f) :
      Turn m (.issue id) (.failed f) m
  | reported {id : WriteId} {op : Operation} {g : Option Generation} {v : Verdict}
      {m' : Monitor κ} (hreport : m.recordCompletion id op g = (m', v)) :
      Turn m (.complete id op g) (.verdict v) m'
  | marked {id : WriteId} {released : Bool} {m' : Monitor κ}
      (hmark : m.markCheckpointDone id = .ok (m', released)) :
      Turn m (.mark id) (.marked released) m'
  | unmarked {id : WriteId} {f : Fault} (hfault : m.markCheckpointDone id = .error f) :
      Turn m (.mark id) (.failed f) m
  | shutDown : Turn m .shutDown .nothing m.shutDown

/-- What `step` does is one of the cases of `Turn`, with the yield that belongs to it. -/
theorem turn_of_step (h : m.step a = some (m', y)) : m.Turn a y m' := by
  cases a with
  | enter k want =>
    simp only [step] at h
    split at h
    · obtain ⟨rfl, rfl⟩ := Prod.mk.inj (Option.some.inj h)
      exact .visited rfl (visit_enter rfl)
    · exact nomatch h
  | recheck k =>
    obtain ⟨⟨m₁, r⟩, hrecheck, heq⟩ := Option.map_eq_some_iff.mp h
    obtain ⟨rfl, rfl⟩ := Prod.mk.inj heq
    -- A woken caller looks for what it slept for, which `want?` reads off the waiters.
    obtain ⟨want, hwant, hvisit⟩ := visit_recheck hrecheck
    exact .visited hwant hvisit
  | stir k =>
    simp only [step] at h
    split at h
    · obtain ⟨rfl, rfl⟩ := Prod.mk.inj (Option.some.inj h)
      exact .stirred k
    · exact nomatch h
  | issue id =>
    simp only [step] at h
    split at h <;> obtain ⟨rfl, rfl⟩ := Prod.mk.inj (Option.some.inj h)
    · rename_i hissue
      exact .issued hissue
    · rename_i hfault
      exact .unissued hfault
  | complete id op g =>
    obtain ⟨rfl, rfl⟩ := Prod.mk.inj (Option.some.inj h)
    exact .reported rfl
  | mark id =>
    simp only [step] at h
    split at h <;> obtain ⟨rfl, rfl⟩ := Prod.mk.inj (Option.some.inj h)
    · rename_i hmark
      exact .marked hmark
    · rename_i hfault
      exact .unmarked hfault
  | shutDown =>
    obtain ⟨rfl, rfl⟩ := Prod.mk.inj (Option.some.inj h)
    exact .shutDown

/-- The effect of a `Visit` is a claim if it yields a slot, and none otherwise. -/
private theorem effected_of_visit {k : κ} {want : Want} {first : Bool} {r : Option Reply}
    (hwant : m.want? a = some want) (hvisit : m.Visit k want first m' r) :
    Effected m.table (m.effect? a (.ofReply? r)) m'.table := by
  -- Only a caller that gets its slot changes one.
  cases want with
  | slot id =>
    rcases hvisit.slot_cases with ⟨g, rfl, hacquire⟩ | ⟨e, rfl, htable⟩ | ⟨rfl, htable⟩
    · obtain ⟨s, hfree, -, rfl, hrep⟩ := acquire_granted hacquire
      simp only [Yield.ofReply?, effect?, hwant]
      exact .claimed hfree hrep
    · rw [htable]
      exact .nothing rfl rfl
    · rw [htable]
      exact .nothing rfl rfl
  | join id stage =>
    obtain ⟨htable, ⟨-, rfl, -⟩ | ⟨rfl, -⟩ | ⟨f, rfl, -⟩ | ⟨rfl, -⟩⟩ := hvisit.join_cases <;>
    · rw [htable]
      exact .nothing rfl rfl
  | drain =>
    rw [hvisit.drain_cases.1]
    -- No answer to a wait for the whole table is read as an effect.
    have hnone : m.effect? a (.ofReply? r) = none := by
      rcases r with - | (g | - | - | e | f) <;> simp [Yield.ofReply?, effect?, hwant]
    rw [hnone]
    exact .nothing rfl rfl

/-- The effect of `recordCompletion` is a completion if the report was accepted, with the count of
outstanding operations that it found. -/
private theorem effected_of_report {id : WriteId} {op : Operation} {g : Option Generation}
    {v : Verdict} (h : m.recordCompletion id op g = (m', v)) :
    Effected m.table (m.effect? (.complete id op g) (.verdict v)) m'.table := by
  rcases recordCompletion_cases (recordCompletion_table h) with
    ⟨hrefused, hslots, -, hflight, -⟩ | ⟨s, haccepts, hnew, rfl, hrep⟩
  · cases v with
    | accepted => exact nomatch hrefused
    | unknown | stale | duplicate => exact .nothing hslots hflight
  · have hfound : m.pendingIo id = s.pendingIo := by
      rw [pendingIo, hrep.old]
      rfl
    simp only [Verdict.ofSlot, effect?, hfound]
    exact .completed (Slot.inUse_of_accepts haccepts) hnew hrep

/-- What a `Turn` does to the slots is what `effect?` reads off its yield. -/
theorem Turn.effected (h : m.Turn a y m') : Effected m.table (m.effect? a y) m'.table := by
  cases h with
  | visited hwant hvisit => exact effected_of_visit hwant hvisit
  | stirred | unissued | unmarked | shutDown => exact .nothing rfl rfl
  | issued hissue =>
    obtain ⟨s, huse, -, hrep⟩ := recordIssue_ok (recordIssue_table hissue)
    exact .issued huse hrep
  | reported hreport => exact effected_of_report hreport
  | marked hmark =>
    obtain ⟨s, rfl, hrep⟩ := markCheckpointDone_ok (markCheckpointDone_table hmark)
    exact .marked hrep

/-- What a `step` does to the slots is what `effect?` reads off its yield. -/
theorem effected_of_step (h : m.step a = some (m', y)) :
    Effected m.table (m.effect? a y) m'.table := (turn_of_step h).effected

end Monitor

/-! ## What a slot accounts for -/

variable {es : List Effect} {e : Effect} {id : WriteId} {s s' : Slot} {t t' : Table}

/-- The effects since the last claim on the slot of a write. -/
def recent (id : WriteId) (es : List Effect) : List Effect := es.rtakeWhile (!·.claims id)

/-- An effect that is no claim on the slot joins the `recent` ones. -/
theorem recent_concat (h : e.claims id = false) : recent id (es ++ [e]) = recent id es ++ [e] :=
  List.rtakeWhile_concat_pos _ _ _ (by simp [h])

/-- A claim leaves no effect `recent`: the account of its occupant begins there. -/
theorem recent_claimed (g : Generation) : recent id (es ++ [.claimed id g]) = [] :=
  List.rtakeWhile_concat_neg _ _ _ (by simp [Effect.claims])

/-- What followed a claim ends with what followed the last claim, `recent`. -/
theorem recent_suffix (before mid : List Effect) (g : Generation) :
    recent id (before ++ .claimed id g :: mid) <:+ mid := by
  -- From the end: another claim in `mid` only makes it shorter.
  induction mid using List.reverseRecOn with
  | nil => simp [recent_claimed]
  | append_singleton mid e ih =>
    rw [← List.cons_append, ← List.append_assoc]
    cases he : e.claims id with
    | false =>
      rw [recent_concat he]
      exact (List.suffix_append_inj_of_length_eq rfl).mpr ⟨ih, rfl⟩
    | true =>
      rw [recent, List.rtakeWhile_concat_neg _ _ _ (by simp [he])]
      exact List.nil_suffix

/-- How often the slot of a write was claimed. -/
def claims (id : WriteId) (es : List Effect) : Nat := es.countP (·.claims id)

/-- How many operations were put on record since the last claim. -/
def issues (id : WriteId) (es : List Effect) : Nat := (recent id es).countP (·.issues id)

/-- How many operations were noted as complete since the last claim with none outstanding. -/
def unissued (id : WriteId) (es : List Effect) : Nat := (recent id es).countP (·.isUnissued id)

/-- One more effect counts in `claims` if it is a claim on the slot. -/
theorem claims_concat : claims id (es ++ [e]) = claims id es + (e.claims id).toNat := by
  rw [claims, List.countP_append, List.countP_singleton, claims]
  cases e.claims id <;> rfl

/-- A claim that was made stays made, so `claims` never falls. -/
theorem claims_le (id : WriteId) (es es' : List Effect) : claims id es ≤ claims id (es ++ es') := by
  rw [claims, claims, List.countP_append]
  exact Nat.le_add_right _ _

/-- One more effect that is no claim counts in `issues` if it is an issue. -/
theorem issues_concat (h : e.claims id = false) :
    issues id (es ++ [e]) = issues id es + (e.issues id).toNat := by
  rw [issues, recent_concat h, List.countP_append, List.countP_singleton, issues]
  cases e.issues id <;> rfl

/-- One more effect that is no claim counts in `unissued` if it is a completion without an issue. -/
theorem unissued_concat (h : e.claims id = false) :
    unissued id (es ++ [e]) = unissued id es + (e.isUnissued id).toNat := by
  rw [unissued, recent_concat h, List.countP_append, List.countP_singleton, unissued]
  cases e.isUnissued id <;> rfl

/-- What the effects on a table say about a slot. -/
structure Account (es : List Effect) (id : WriteId) (s : Slot) : Prop where
  generation_eq : s.generation = UInt64.ofNat (claims id es)
  undrained : s.inUse = true → s.isDrained = false
  pending_eq : s.inUse = true → s.pendingIo + s.completed.size = issues id es + unissued id es
  pending_le : s.inUse = true → s.pendingIo ≤ issues id es
  released : s.inUse = false → 0 < claims id es → ∃ e ∈ recent id es, e.releases id = true

namespace Account

/-- A slot of a new table has an `Account` of no effects. -/
theorem create (id : WriteId) : Account [] id {} :=
  ⟨rfl, nofun, nofun, nofun, fun _ h => absurd h (Nat.lt_irrefl 0)⟩

/-- An effect that releases (`releases`) stays among the `recent` ones until the next claim. -/
private theorem released_concat (h : Account es id s) (hclaims : e.claims id = false)
    (hfree : s.inUse = false) (hpos : 0 < claims id (es ++ [e])) :
    ∃ e' ∈ recent id (es ++ [e]), e'.releases id = true := by
  rw [claims_concat, hclaims] at hpos
  obtain ⟨e', hmem, hreleases⟩ := h.released hfree hpos
  rw [recent_concat hclaims]
  exact ⟨e', List.mem_append_left _ hmem, hreleases⟩

/-- An effect on another slot leaves the `Account` of this one as it is. -/
theorem frame (h : Account es id s) (he : e.slot ≠ id) : Account (es ++ [e]) id s := by
  have hclaims := Effect.claims_of_slot_ne he
  have hissues := Effect.issues_of_slot_ne he
  have hunissued := Effect.isUnissued_of_slot_ne he
  refine ⟨?_, h.undrained, ?_, ?_, h.released_concat hclaims⟩
  · rw [claims_concat, hclaims]
    exact h.generation_eq
  · rw [issues_concat hclaims, unissued_concat hclaims, hissues, hunissued]
    exact h.pending_eq
  · rw [issues_concat hclaims, hissues]
    exact h.pending_le

/-- A claim begins a new account: the slot is `occupy` of what it was, with nothing outstanding. -/
theorem claim (h : Account es id s) :
    Account (es ++ [.claimed id s.occupy.generation]) id s.occupy := by
  have hclaims : (Effect.claimed id s.occupy.generation).claims id = true := beq_self_eq_true id
  refine ⟨?_, fun _ => rfl, fun _ => ?_, fun _ => Nat.zero_le _, nofun⟩
  · rw [claims_concat, hclaims, UInt64.ofNat_add, ← h.generation_eq]
    rfl
  · rw [issues, unissued, recent_claimed]
    simp [Slot.occupy]

/-- An occupied slot after one more effect, and after its release if nothing keeps its occupant:
`settle` is what the table makes of it. -/
private theorem settle (huse : s.inUse = true) (hclaims : e.claims id = false)
    (hreleases : e.releases id = s.isDrained) (hgen : s.generation = UInt64.ofNat (claims id es))
    (hpending : s.pendingIo + s.completed.size =
      issues id es + (e.issues id).toNat + (unissued id es + (e.isUnissued id).toNat))
    (hle : s.pendingIo ≤ issues id es + (e.issues id).toNat) :
    Account (es ++ [e]) id s.settle := by
  have hgen' : s.generation = UInt64.ofNat (claims id (es ++ [e])) := by
    rw [claims_concat, hclaims]
    exact hgen
  rw [← issues_concat hclaims] at hpending hle
  rw [← unissued_concat hclaims] at hpending
  cases hdrained : s.isDrained with
  | true =>
    -- The slot is freed by this effect, which says so.
    rw [Slot.settle_of_drained huse hdrained]
    refine ⟨hgen', nofun, nofun, nofun, fun _ _ => ⟨e, ?_, hreleases.trans hdrained⟩⟩
    rw [recent_concat hclaims]
    exact List.mem_append_right _ List.mem_cons_self
  | false =>
    rw [Slot.settle_of_not_drained hdrained]
    exact ⟨hgen', fun _ => hdrained, fun _ => hpending, fun _ => hle,
      fun hfree => absurd (huse.symm.trans hfree) nofun⟩

/-- An operation put on record counts as outstanding in the slot and as an `issued` effect in the
account. -/
theorem issue (h : Account es id s) (huse : s.inUse = true) :
    Account (es ++ [.issued id]) id s.issue := by
  have hissues : (Effect.issued id).issues id = true := beq_self_eq_true id
  have hkeeps : s.issue.isDrained = false := by simp [Slot.isDrained, Slot.issue]
  have hpending := h.pending_eq huse
  have hle := h.pending_le huse
  rw [← Slot.settle_of_not_drained hkeeps]
  refine settle huse rfl hkeeps.symm h.generation_eq ?_ ?_
  · rw [hissues]
    show s.pendingIo + 1 + s.completed.size = issues id es + 1 + (unissued id es + 0)
    omega
  · rw [hissues]
    exact Nat.succ_le_succ hle

/-- A completion moves one operation from `pendingIo` to `completed`. If none was outstanding it is
one more in the account's `unissued`. -/
theorem complete {op : Operation} (h : Account es id s) (huse : s.inUse = true)
    (hnew : s.completed.contains op = false) :
    Account (es ++ [.completed id op s.pendingIo (s.complete op).isDrained]) id
      (s.complete op).settle := by
  have hunissued : (Effect.completed id op s.pendingIo (s.complete op).isDrained).isUnissued id =
      (s.pendingIo == 0) := by simp [Effect.isUnissued]
  have hpending := h.pending_eq huse
  have hle := h.pending_le huse
  have hsize : (s.complete op).completed.size = s.completed.size + 1 := OpSet.size_insert hnew
  have hless : (s.complete op).pendingIo = s.pendingIo - 1 := rfl
  refine settle huse rfl (by simp [Effect.releases]) h.generation_eq ?_ ?_
  · -- The count goes down with the report unless it was at zero.
    rw [hunissued, hsize, hless]
    by_cases hzero : s.pendingIo = 0
    · simp only [hzero, beq_self_eq_true, Bool.toNat_true, Effect.issues, Bool.toNat_false]
      omega
    · simp only [beq_eq_false_iff_ne.mpr hzero, Bool.toNat_false, Effect.issues]
      omega
  · rw [hless]
    exact (Nat.sub_le _ _).trans hle

/-- A `marked` effect changes no count. Of an occupied slot it says whether it is released; on a
free slot it stays until the next claim resets it. -/
theorem mark (h : Account es id s) :
    Account (es ++ [.marked id (s.inUse && s.mark.isDrained)]) id s.mark.settle := by
  cases huse : s.inUse with
  | true =>
    exact settle (s := s.mark) huse rfl (by simp [Effect.releases]) h.generation_eq
      (h.pending_eq huse) (h.pending_le huse)
  | false =>
    -- The mark of a free slot is lost with its next claim.
    have hfree : s.mark.settle = s.mark := by simp [Slot.settle, Slot.mark, huse]
    have hmarked : ¬ s.mark.inUse = true := by simp [Slot.mark, huse]
    rw [hfree]
    refine ⟨?_, fun h => absurd h hmarked, fun h => absurd h hmarked, fun h => absurd h hmarked,
      fun _ => h.released_concat rfl huse⟩
    rw [claims_concat]
    exact h.generation_eq

end Account

/-! ## Steps -/

/-- What a step does to a slot before the slot is released if nothing keeps its occupant. -/
def touched (e? : Option Effect) (id : WriteId) (s : Slot) : Slot := e?.elim s (·.onSlot id s)

namespace Effected

variable {e? : Option Effect}

/-- What a step tells of a table, by the slot that it `Replaces` if it replaces one. -/
theorem cases_replaces (h : Effected t e? t') :
    (e? = none ∧ t'.slots = t.slots ∧ t'.inFlight = t.inFlight) ∨
      ∃ e s s', e? = some e ∧ Replaces t t' e.slot s s' := by
  cases h with
  | nothing hslots hflight => exact .inl ⟨rfl, hslots, hflight⟩
  | claimed hfree hrep | issued huse hrep | completed huse hnew hrep | marked hrep =>
    exact .inr ⟨_, _, _, rfl, hrep⟩

/-- No effect (`Effected`) changes the number of slots. -/
theorem size_eq (h : Effected t e? t') : t'.slots.size = t.slots.size := by
  rcases h.cases_replaces with ⟨-, hslots, -⟩ | ⟨e, s, s', -, hrep⟩
  · rw [hslots]
  · rw [hrep.slots_eq, Array.size_setIfInBounds]

/-- Every effect keeps `inFlight` the number of slots in use. -/
theorem isCounted (h : Effected t e? t') (hc : t.IsCounted) : t'.IsCounted := by
  rcases h.cases_replaces with ⟨-, hslots, hflight⟩ | ⟨e, s, s', -, hrep⟩
  · rw [IsCounted, hslots, hflight]
    exact hc
  · exact hrep.isCounted hc

/-- A step keeps what holds of every slot, `P`, if each kind of effect keeps it for the slot that
the effect is on, and for all others. -/
theorem preserves {P : List Effect → WriteId → Slot → Prop} (h : Effected t e? t')
    (hall : ∀ id s, t.slot? id = some s → P es id s)
    (hframe : ∀ {e id s}, P es id s → e.slot ≠ id → P (es ++ [e]) id s)
    (hclaim : ∀ {id s}, P es id s → s.inUse = false →
      P (es ++ [.claimed id s.occupy.generation]) id s.occupy)
    (hissue : ∀ {id s}, P es id s → s.inUse = true → P (es ++ [.issued id]) id s.issue)
    (hcomplete : ∀ {id s op}, P es id s → s.inUse = true → s.completed.contains op = false →
      P (es ++ [.completed id op s.pendingIo (s.complete op).isDrained]) id (s.complete op).settle)
    (hmark : ∀ {id s}, P es id s →
      P (es ++ [.marked id (s.inUse && s.mark.isDrained)]) id s.mark.settle) :
    ∀ id s, t'.slot? id = some s → P (es ++ e?.toList) id s := by
  have hreplaces {e : Effect} {s s' : Slot} (hrep : Replaces t t' e.slot s s')
      (hself : P es e.slot s → P (es ++ [e]) e.slot s') :
      ∀ id u, t'.slot? id = some u → P (es ++ [e]) id u := by
    intro id u hu
    by_cases hid : id = e.slot
    · subst hid
      rw [hrep.slot?_self, Option.some.injEq] at hu
      subst hu
      exact hself (hall _ _ hrep.old)
    · -- The other slots are as they were, and the effect is none of theirs.
      rw [hrep.slot?_of_ne hid] at hu
      exact hframe (hall _ _ hu) (Ne.symm hid)
  cases h with
  | nothing hslots =>
    intro id s hs
    rw [Option.toList_none, List.append_nil]
    exact hall id s (by rwa [slot?, hslots] at hs)
  | claimed hfree hrep => exact hreplaces hrep (hclaim · hfree)
  | issued huse hrep => exact hreplaces hrep (hissue · huse)
  | completed huse hnew hrep => exact hreplaces hrep (hcomplete · huse hnew)
  | marked hrep => exact hreplaces hrep hmark

/-- A step keeps the `Account` of every slot. -/
theorem account (h : Effected t e? t') (hall : ∀ id s, t.slot? id = some s → Account es id s) :
    ∀ id s, t'.slot? id = some s → Account (es ++ e?.toList) id s :=
  h.preserves hall Account.frame (fun h _ => h.claim) Account.issue Account.complete Account.mark

/-- A step settles an occupied slot as it has `touched` it, and says if that releases the slot. -/
theorem settled (h : Effected t e? t') (hs : t.slot? id = some s) (huse : s.inUse = true)
    (hundrained : s.isDrained = false) :
    (touched e? id s).inUse = true ∧ t'.slot? id = some (touched e? id s).settle ∧
      ((∃ e, e? = some e ∧ e.releases id = true) ↔ (touched e? id s).isDrained = true) := by
  have hsettle : s.settle = s := Slot.settle_of_not_drained hundrained
  -- A slot that the effect is on was the occupied one, and the new one stands in its place.
  have hself {i : WriteId} {u u' : Slot} (hid : id = i) (hrep : Replaces t t' i u u') :
      u = s ∧ t'.slot? id = some u' := by
    subst hid
    rw [hrep.old, Option.some.injEq] at hs
    exact ⟨hs, hrep.slot?_self⟩
  have hother {e : Effect} {u u' : Slot} (hid : id ≠ e.slot) (hrep : Replaces t t' e.slot u u') :
      (touched (some e) id s).inUse = true ∧ t'.slot? id = some (touched (some e) id s).settle ∧
        ((∃ e', some e = some e' ∧ e'.releases id = true) ↔
          (touched (some e) id s).isDrained = true) := by
    -- The effect does not touch this slot, and settling it once more changes nothing.
    have hid : e.slot ≠ id := Ne.symm hid
    have htouched : touched (some e) id s = s := by cases e <;> exact if_neg hid
    have hreleases := Effect.releases_of_slot_ne hid
    rw [htouched, hsettle, hrep.slot?_of_ne (Ne.symm hid)]
    exact ⟨huse, hs, by simp [hreleases, hundrained]⟩
  cases h with
  | nothing hslots =>
    refine ⟨huse, ?_, by simp [touched, hundrained]⟩
    rw [touched, Option.elim_none, hsettle, slot?, hslots]
    exact hs
  | @claimed _ i u hfree hrep =>
    -- A claim is on a free slot, so it is on another one.
    refine hother (fun hid => ?_) hrep
    rw [(hself hid hrep).1, huse] at hfree
    cases hfree
  | @issued _ i u _ hrep =>
    by_cases hid : id = i
    · obtain ⟨rfl, hnew⟩ := hself hid hrep
      have htouched : touched (some (.issued i)) id u = u.issue := if_pos hid.symm
      have hkeeps : u.issue.isDrained = false := by simp [Slot.isDrained, Slot.issue]
      -- An operation that has just been put on record keeps its slot.
      rw [htouched, Slot.settle_of_not_drained hkeeps]
      exact ⟨huse, hnew, by simp [Effect.releases, hkeeps]⟩
    · exact hother hid hrep
  | @completed _ i u op _ _ hrep =>
    by_cases hid : id = i
    · obtain ⟨rfl, hnew⟩ := hself hid hrep
      have htouched : touched (some (.completed i op u.pendingIo (u.complete op).isDrained)) id u =
          u.complete op := if_pos hid.symm
      rw [htouched]
      exact ⟨huse, hnew, by simp [Effect.releases, hid]⟩
    · exact hother hid hrep
  | @marked _ i u hrep =>
    by_cases hid : id = i
    · obtain ⟨rfl, hnew⟩ := hself hid hrep
      have htouched : touched (some (.marked i (u.inUse && u.mark.isDrained))) id u = u.mark :=
        if_pos hid.symm
      rw [htouched]
      exact ⟨huse, hnew, by simp [Effect.releases, hid, huse]⟩
    · exact hother hid hrep

end Effected

/-- Between any two claims on the slot of a write there is a release. -/
def Alternates (id : WriteId) (es : List Effect) : Prop :=
  ∀ before mid after g g', es = before ++ .claimed id g :: (mid ++ .claimed id g' :: after) →
    ∃ e ∈ mid, e.releases id = true

/-- One more effect keeps `Alternates` if a claim finds a release since the last one. -/
theorem Alternates.concat (h : Alternates id es)
    (he : e.claims id = true → 0 < claims id es → ∃ e' ∈ recent id es, e'.releases id = true) :
    Alternates id (es ++ [e]) := by
  intro before mid after g g' heq
  induction after using List.reverseRecOn with
  | nil =>
    -- The second claim is the new effect.
    rw [← List.cons_append, ← List.append_assoc] at heq
    obtain ⟨rfl, hlast⟩ := List.append_inj' heq rfl
    obtain rfl := List.singleton_inj.mp hlast
    have hpos : 0 < claims id (before ++ .claimed id g :: mid) :=
      List.countP_pos_iff.mpr ⟨.claimed id g, by simp, beq_self_eq_true id⟩
    obtain ⟨e', hmem, hreleases⟩ := he (beq_self_eq_true id) hpos
    exact ⟨e', (recent_suffix before mid g).mem hmem, hreleases⟩
  | append_singleton after e' _ =>
    rw [← List.cons_append, ← List.append_assoc, ← List.cons_append, ← List.append_assoc] at heq
    -- Both claims were there before the new effect.
    obtain ⟨rfl, -⟩ := List.append_inj' heq rfl
    exact h before mid after g g' (by simp)

namespace Monitor

variable {κ : Type} [DecidableEq κ] {m m' : Monitor κ} {a : Action κ} {as : List (Action κ)}
  {y : Yield} {capacity : Nat}

/-! ## Runs -/

/-- The actions `as` lead from a new table to `m`, with the effects `es`. -/
inductive Run (capacity : Nat) : List (Action κ) → Monitor κ → List Effect → Prop where
  | start : Run capacity [] { table := Table.create capacity } []
  | step {as : List (Action κ)} {m m' : Monitor κ} {es : List Effect} {a : Action κ} {y : Yield}
      (hrun : Run capacity as m es) (hstep : m.step a = some (m', y)) :
      Run capacity (as ++ [a]) m' (es ++ (m.effect? a y).toList)

/-- Takes the actions one after the other from a new table; none if one of them is not possible. -/
def trace? (capacity : Nat) (as : List (Action κ)) : Option (Monitor κ × List Effect) :=
  as.foldlM (fun (m, es) a => (m.step a).map fun (m', y) => (m', es ++ (m.effect? a y).toList))
    ({ table := Table.create capacity }, [])

/-- A list of actions that `trace?` takes is a run. -/
theorem Run.of_trace? (h : trace? capacity as = some (m, es)) : Run capacity as m es := by
  -- From the end, as a run is built.
  induction as using List.reverseRecOn generalizing m es with
  | nil =>
    obtain ⟨rfl, rfl⟩ := Prod.mk.inj (Option.some.inj h)
    exact .start
  | append_singleton as a ih =>
    rw [trace?, List.foldlM_append] at h
    obtain ⟨⟨m₀, es₀⟩, htrace, hlast⟩ := Option.bind_eq_some_iff.mp h
    simp only [List.foldlM_cons, List.foldlM_nil, Option.bind_eq_bind, Option.pure_def,
      Option.bind_fun_some] at hlast
    obtain ⟨⟨m', y⟩, hstep, heq⟩ := Option.map_eq_some_iff.mp hlast
    obtain ⟨rfl, rfl⟩ := Prod.mk.inj heq
    exact (ih htrace).step hstep

/-- A run is the only one with its actions: `trace?` finds it. -/
theorem Run.trace?_eq (h : Run capacity as m es) : trace? capacity as = some (m, es) := by
  induction h with
  | start => rfl
  | step hrun hstep ih =>
    rw [trace?] at ih ⊢
    simp only [List.foldlM_append, ih, List.foldlM_cons, List.foldlM_nil, Option.bind_eq_bind,
      Option.bind_some, hstep, Option.map_some, Option.pure_def, Option.bind_fun_some]

/-- The table of a run keeps its `capacity`. -/
theorem Run.size_eq (h : Run capacity as m es) : m.table.slots.size = capacity := by
  induction h with
  | start => exact Array.size_replicate
  | step hrun hstep ih => exact (effected_of_step hstep).size_eq.trans ih

/-- The table of a run counts its slots in use (`IsCounted`). -/
theorem Run.isCounted (h : Run capacity as m es) : m.table.IsCounted := by
  induction h with
  | start => exact isCounted_create capacity
  | step hrun hstep ih => exact (effected_of_step hstep).isCounted ih

/-- Every slot of a run has an `Account` of the effects on it since its last claim. -/
theorem Run.accounts (h : Run capacity as m es) :
    ∀ id s, m.table.slot? id = some s → Account es id s := by
  induction h with
  | start =>
    intro id s hs
    obtain ⟨hlt, rfl⟩ := Array.getElem?_eq_some_iff.mp hs
    simp only [Table.create, Array.getElem_replicate]
    exact .create id
  | step hrun hstep ih => exact (effected_of_step hstep).account ih

/-- Between two claims on a slot in a run there is a release of it (`Alternates`). -/
theorem Run.alternates (h : Run capacity as m es) (id : WriteId) : Alternates id es := by
  induction h with
  | start => exact fun before mid after g g' heq => by simp at heq
  | @step as m m' es a y hrun hstep ih =>
    have heffected := effected_of_step hstep
    cases he : m.effect? a y with
    | none => rwa [Option.toList_none, List.append_nil]
    | some e =>
      refine ih.concat fun hclaims hpos => ?_
      rw [he] at heffected
      cases heffected with
      | claimed hfree hrep =>
        -- The slot was free for the claim.
        obtain rfl := beq_iff_eq.mp hclaims
        exact (hrun.accounts _ _ hrep.old).released hfree hpos
      | issued | completed | marked => exact nomatch hclaims

/-- The slots of a table agree with the effects of the calls on it. -/
structure Represents (capacity : Nat) (m : Monitor κ) (es : List Effect) : Prop where
  size : m.table.slots.size = capacity
  /-- As many writes are in flight as slots are in use. -/
  inFlight : m.table.inFlight = m.table.slots.countP (·.inUse)
  /-- No occupied slot is marked with nothing outstanding. -/
  undrained : ∀ id s, m.table.slot? id = some s → s.inUse = true →
    ¬ (s.checkpointDone = true ∧ s.pendingIo = 0)
  /-- A step frees an occupied slot exactly if it makes both true, and then it says so. -/
  freed : ∀ id s a m' y, m.table.slot? id = some s → s.inUse = true → m.step a = some (m', y) →
    ∃ s', m'.table.slot? id = some s' ∧
      (s'.inUse = false ↔ (touched (m.effect? a y) id s).checkpointDone = true ∧
        (touched (m.effect? a y) id s).pendingIo = 0) ∧
      (s'.inUse = false ↔ ∃ e, m.effect? a y = some e ∧ e.releases id = true)
  /-- What is outstanding or complete was issued, or reported with nothing outstanding. -/
  pending : ∀ id s, m.table.slot? id = some s → s.inUse = true →
    s.pendingIo + s.completed.size = issues id es + unissued id es
  /-- A generation counts the claims, as far as it can. -/
  generation : ∀ id s, m.table.slot? id = some s → s.generation = UInt64.ofNat (claims id es)
  alternates : ∀ id, Alternates id es
  /-- An issue for an occupied slot is counted, `maxPending` times in an occupancy at least. -/
  issue : ∀ id s, m.table.slot? id = some s → s.inUse = true → issues id es < maxPending →
    ∃ m', m.step (.issue id) = some (m', .issued s.generation)
  /-- There is a mark for every slot. -/
  mark : ∀ id < capacity, ∃ m' released, m.step (.mark id) = some (m', .marked released)

/-- Whatever calls come to a table, in whatever order and from however many callers, its slots agree
with their effects: all that `Represents` lists. -/
theorem Run.represents (h : Run capacity as m es) : Represents capacity m es := by
  have haccounts := h.accounts
  refine ⟨h.size_eq, h.isCounted, fun id s hs huse hdrained => ?_,
    fun id s a m' y hs huse hstep => ?_, fun id s hs => (haccounts id s hs).pending_eq,
    fun id s hs => (haccounts id s hs).generation_eq, h.alternates, fun id s hs huse hissues => ?_,
    fun id hid => ?_⟩
  · -- An occupied slot that is drained would have been released.
    have hundrained := (haccounts id s hs).undrained huse
    simp [Slot.isDrained, hdrained] at hundrained
  · -- What frees the slot is the effect that says so.
    obtain ⟨hstays, hs', hreleases⟩ := (effected_of_step hstep).settled hs huse
      ((haccounts id s hs).undrained huse)
    have hsettle := Slot.settle_inUse hstays
    refine ⟨_, hs', ?_, hsettle.trans hreleases.symm⟩
    rw [hsettle]
    simp [Slot.isDrained]
  · -- No more is outstanding than was issued in the occupancy, so the count has a next value.
    have hle := (haccounts id s hs).pending_le huse
    obtain ⟨t, ht⟩ := recordIssue_eq_ok hs huse
      (Nat.lt_of_le_of_lt hle hissues)
    exact ⟨{ m with table := t }, by simp [Monitor.step, Monitor.recordIssue, ht, Except.map]⟩
  · -- A mark asks for a slot only.
    have hlt : id < m.table.slots.size := h.size_eq ▸ hid
    have hs : m.table.slot? id = some m.table.slots[id] := Array.getElem?_eq_getElem hlt
    simp only [Monitor.step, Monitor.markCheckpointDone, Table.markCheckpointDone, hs, Except.map]
    exact ⟨_, _, rfl⟩

/-- A slot is claimed by a caller that waited for it. The occupant before completed one operation
that was never issued, and the new one has one of two operations outstanding. -/
theorem represents_of_reuse :
    ∃ m es s, Run 1 [.enter 0 (.slot 0), .issue 0, .complete 0 .journalTxe none,
        .complete 0 .writeData none, .enter 1 (.slot 0), .mark 0, .recheck 1, .issue 0, .issue 0,
        .complete 0 .writeData (some 1), .complete 0 .writeData (some 2), .mark 0] m es ∧
      es = [.claimed 0 1, .issued 0, .completed 0 .journalTxe 1 false,
        .completed 0 .writeData 0 false, .marked 0 true, .claimed 0 2, .issued 0, .issued 0,
        .completed 0 .writeData 2 false, .marked 0 false] ∧
      m.table.slot? 0 = some s ∧ s.inUse = true ∧ s.checkpointDone = true ∧ s.pendingIo ≠ 0 ∧
      s.pendingIo + s.completed.size = issues 0 es + unissued 0 es ∧
      s.generation = UInt64.ofNat (claims 0 es) ∧ Alternates 0 es ∧
      m.table.inFlight = m.table.slots.countP (·.inUse) ∧
      ∃ m', m.step (.issue 0) = some (m', .issued 2) := by
  have htrace : (trace? 1 [.enter 0 (.slot 0), .issue 0, .complete 0 .journalTxe none,
      .complete 0 .writeData none, .enter 1 (.slot 0), .mark 0, .recheck 1, .issue 0, .issue 0,
      .complete 0 .writeData (some 1), .complete 0 .writeData (some 2), .mark 0]).map
        (fun r => (r.1.table.slot? 0, r.2)) =
      some (some ⟨true, 2, OpSet.empty.insert .writeData, 1, true⟩,
        [.claimed 0 1, .issued 0, .completed 0 .journalTxe 1 false, .completed 0 .writeData 0 false,
          .marked 0 true, .claimed 0 2, .issued 0, .issued 0, .completed 0 .writeData 2 false,
          .marked 0 false]) := by decide +kernel
  obtain ⟨⟨m, es⟩, htrace, heq⟩ := Option.map_eq_some_iff.mp htrace
  obtain ⟨hslot, hes⟩ := Prod.mk.inj heq
  have hrun := Run.of_trace? htrace
  have h := Run.represents hrun
  have hundrained := h.undrained 0 _ hslot rfl
  have hissues : issues 0 es = 2 := by
    rw [show es = _ from hes]
    decide
  exact ⟨m, es, _, hrun, hes, hslot, rfl, rfl, fun hzero => hundrained ⟨rfl, hzero⟩,
    h.pending 0 _ hslot rfl, h.generation 0 _ hslot, h.alternates 0, h.inFlight,
    h.issue 0 _ hslot rfl (by rw [hissues]; decide)⟩

end Monitor

end WriteAhead.Table
