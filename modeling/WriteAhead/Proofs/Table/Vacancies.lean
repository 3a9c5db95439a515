import WriteAhead.Proofs.Table.Effects
import WriteAhead.Proofs.Table.Neutral

/-!
# What a free slot holds

A release leaves nothing in the slot but the generation of the occupant. Issues and reports are
refused while the slot is free, but a mark is not: it stays in the slot until the next claim. So a
free slot is known from the effects on it: its generation counts the claims, and it is marked if a
mark came since the last release. Only a look at the slot itself shows such a mark: no call on the
table reads it, so all calls are answered as if every free slot had been reset.

## Key results

- `Run.vacant`: a free slot has kept its generation, and the marks since its last release
- `Table.neutral_unmarked`, `Monitor.step_unmarked`: no step depends on the mark of a free slot
- `Run.vacates`: what a free slot holds, and that no call can tell it from a slot that was reset
- `mark_left_behind`: a mark that stays in a free slot
-/

namespace WriteAhead

/-! ## Marks of free slots -/

/-- The slot without a mark that came while it was free: `checkpointDone` counts in a slot in use
only. -/
def Slot.unmarked (s : Slot) : Slot := { s with checkpointDone := s.inUse && s.checkpointDone }

theorem Slot.unmarked_unmarked (s : Slot) : s.unmarked.unmarked = s.unmarked := by
  simp [unmarked]

/-- Only an occupant can be drained, and its mark is kept by `unmarked`. -/
theorem Slot.isDrained_unmarked (s : Slot) :
    (s.unmarked.inUse && s.unmarked.isDrained) = (s.inUse && s.isDrained) := by
  cases huse : s.inUse <;> simp [unmarked, isDrained, huse]

namespace Table

/-- The table without the marks of its free slots. -/
def unmarked (t : Table) : Table := { t with slots := t.slots.map Slot.unmarked }

section

variable (t : Table) (id : WriteId)

theorem slot?_unmarked : t.unmarked.slot? id = (t.slot? id).map Slot.unmarked :=
  Array.getElem?_map

theorem capacity_unmarked : t.unmarked.capacity = t.capacity := Array.size_map

theorem unmarked_unmarked : t.unmarked.unmarked = t.unmarked := by
  simp [unmarked, Function.comp_def, Slot.unmarked_unmarked]

variable {t id} in
/-- A change of a slot is the same without the marks (`unmarked`), up to the mark of that slot. -/
theorem unmarked_modify {f f' : Slot → Slot} (h : ∀ s, (f s).unmarked = f' s.unmarked) :
    (t.modify id f).unmarked = t.unmarked.modify id f' := by
  suffices hslots : (t.slots.modify id f).map Slot.unmarked =
      (t.slots.map Slot.unmarked).modify id f' by
    simp only [unmarked, modify, hslots]
  apply Array.ext_getElem?
  intro i
  simp only [Array.getElem?_map, Array.getElem?_modify]
  split <;> simp [Function.comp_def, h]

/-- A `tryRelease` asks whether the slot is in use before it looks at the mark. -/
theorem tryRelease_unmarked :
    t.unmarked.tryRelease id = ((t.tryRelease id).1.unmarked, (t.tryRelease id).2) := by
  unfold tryRelease
  rw [slot?_unmarked]
  cases t.slot? id with
  | none => rfl
  | some s =>
    simp only [Option.map_some, Slot.isDrained_unmarked]
    split
    · have hmodify : (t.modify id Slot.reset).unmarked = t.unmarked.modify id Slot.reset :=
        unmarked_modify fun _ => rfl
      rw [← hmodify]
      rfl
    · rfl

/-- An `acquire` resets the mark of the slot that it occupies. -/
theorem acquire_unmarked : t.unmarked.acquire id = (t.acquire id).map unmarked := by
  have hdown : t.unmarked.isShutDown = t.isShutDown := rfl
  unfold acquire
  rw [slot?_unmarked, capacity_unmarked, hdown]
  cases t.slot? id with
  | none => rfl
  | some s =>
    have huse : s.unmarked.inUse = s.inUse := rfl
    have hmodify : (t.modify id Slot.occupy).unmarked = t.unmarked.modify id Slot.occupy :=
      unmarked_modify fun _ => rfl
    simp only [Option.map_some, huse, ← hmodify]
    split
    · rfl
    · split <;> rfl

/-- A `recordIssue` is refused on a free slot, and does not look at the mark of others. -/
theorem recordIssue_unmarked :
    t.unmarked.recordIssue id = (t.recordIssue id).map fun (t', g) => (t'.unmarked, g) := by
  unfold recordIssue
  rw [slot?_unmarked, capacity_unmarked]
  cases t.slot? id with
  | none => rfl
  | some s =>
    have huse : s.unmarked.inUse = s.inUse := rfl
    have hpending : s.unmarked.pendingIo = s.pendingIo := rfl
    have hmodify : (t.modify id Slot.issue).unmarked = t.unmarked.modify id Slot.issue :=
      unmarked_modify fun _ => rfl
    simp only [Option.map_some, huse, hpending]
    split
    · rfl
    · split
      · rfl
      · exact congrArg (fun t' => Except.ok (t', s.generation)) hmodify.symm

/-- A `recordCompletion` is refused on a free slot; an occupant keeps its mark for the release after
it. -/
theorem recordCompletion_unmarked (op : Operation) (g : Option Generation) :
    t.unmarked.recordCompletion id op g =
      ((t.recordCompletion id op g).1.unmarked, (t.recordCompletion id op g).2) := by
  unfold recordCompletion
  rw [slot?_unmarked]
  cases t.slot? id with
  | none => rfl
  | some s =>
    have haccepts : s.unmarked.accepts g = s.accepts g := rfl
    have hcompleted : s.unmarked.completed = s.completed := rfl
    have hpending : s.unmarked.pendingIo = s.pendingIo := rfl
    -- To complete an operation changes neither `inUse` nor the mark.
    have hmodify : (t.modify id (·.complete op)).unmarked = t.unmarked.modify id (·.complete op) :=
      unmarked_modify fun _ => rfl
    simp only [Option.map_some, haccepts, hcompleted, hpending]
    split
    · rfl
    · split
      · rfl
      · have hrelease := tryRelease_unmarked (t.modify id (·.complete op)) id
        rw [hmodify] at hrelease
        exact congrArg (fun r => (r.1, Verdict.accepted _ _ r.2)) hrelease

/-- What `markCheckpointDone` makes of a free slot is only the mark: without it both tables are the
same. -/
theorem markCheckpointDone_unmarked :
    (t.unmarked.markCheckpointDone id).map (fun (t', released) => (t'.unmarked, released)) =
      (t.markCheckpointDone id).map fun (t', released) => (t'.unmarked, released) := by
  unfold markCheckpointDone
  rw [slot?_unmarked, capacity_unmarked]
  cases t.slot? id with
  | none => rfl
  | some s =>
    -- A mark of a free slot is taken away again.
    have hmark (t : Table) :
        (t.modify id Slot.mark).unmarked = t.unmarked.modify id fun s => s.mark.unmarked :=
      unmarked_modify fun _ => rfl
    have hmodify :
        (t.unmarked.modify id Slot.mark).unmarked = (t.modify id Slot.mark).unmarked := by
      rw [hmark, hmark, unmarked_unmarked]
    have hrelease := tryRelease_unmarked (t.unmarked.modify id Slot.mark) id
    rw [hmodify, tryRelease_unmarked] at hrelease
    exact congrArg Except.ok hrelease.symm

end

/-- To take away the marks of free slots is `Neutral`: all operations but the mark itself commute
with it. -/
theorem neutral_unmarked : Neutral unmarked where
  capacity_eq := capacity_unmarked
  isShutDown_eq _ := rfl
  isDrained_eq _ := rfl
  completed_eq t id := by
    rw [slot?_unmarked, Option.map_map]
    rfl
  acquire_eq := acquire_unmarked
  recordIssue_eq := recordIssue_unmarked
  recordCompletion_eq := recordCompletion_unmarked
  shutDown_eq _ := rfl

namespace Monitor

variable {κ : Type}

/-- The monitor without the marks of its free slots. -/
def unmarked (m : Monitor κ) : Monitor κ := m.change Table.unmarked

/-- What a call comes to, without the marks of free slots. -/
def bare {α : Type} (r : Monitor κ × α) : Monitor κ × α := (r.1.unmarked, r.2)

theorem unmarked_unmarked (m : Monitor κ) : m.unmarked.unmarked = m.unmarked := by
  rw [unmarked, unmarked, change, change, Table.unmarked_unmarked]

/-- A `markCheckpointDone` wakes the same callers with the marks of free slots as without. -/
theorem markCheckpointDone_unmarked (m : Monitor κ) (id : WriteId) :
    (m.unmarked.markCheckpointDone id).map bare = (m.markCheckpointDone id).map bare := by
  -- Whom a release wakes does not depend on the marks.
  have hnotify (t : Table) (released : Bool) :
      ({ m with table := t }.notifyRelease id released).unmarked =
        { m with table := t.unmarked }.notifyRelease id released :=
    (notifyRelease_change neutral_unmarked { m with table := t } id released).symm
  have htable := m.table.markCheckpointDone_unmarked id
  have hunmarked : m.unmarked.table = m.table.unmarked := rfl
  have hwaiters : m.unmarked.waiters = m.waiters := rfl
  unfold markCheckpointDone
  rw [hunmarked, hwaiters]
  cases hbare : m.table.unmarked.markCheckpointDone id <;>
    cases hmark : m.table.markCheckpointDone id <;>
    simp only [hbare, hmark, Except.map, Except.ok.injEq, Except.error.injEq, Prod.mk.injEq,
      reduceCtorEq] at htable ⊢
  · exact htable
  · obtain ⟨heq, hreleased⟩ := htable
    rw [bare, bare, hreleased, hnotify, hnotify, heq]

variable [DecidableEq κ]

/-- What a `step` yields does not depend on the marks of free slots, and neither does what it leaves
but for such marks. -/
theorem step_unmarked (m : Monitor κ) (a : Action κ) :
    (m.unmarked.step a).map bare = (m.step a).map bare := by
  -- A mark is the one action that does not commute, since it sets what is taken away.
  by_cases ha : ∃ id, a = .mark id
  · obtain ⟨id, rfl⟩ := ha
    have hmark := m.markCheckpointDone_unmarked id
    simp only [step]
    cases hu : m.unmarked.markCheckpointDone id <;> cases ht : m.markCheckpointDone id <;>
      simp_all [Except.map, bare, unmarked_unmarked]
  · have hstep := step_change neutral_unmarked m fun id h => ha ⟨id, h⟩
    rw [unmarked, hstep, Option.map_map]
    congr 1
    funext r
    exact congrArg (·, r.2) r.1.unmarked_unmarked

/-- Takes the actions one after the other and lists what they yield; none if one of them is not
possible. -/
def follow? : Monitor κ → List (Action κ) → Option (Monitor κ × List Yield)
  | m, [] => some (m, [])
  | m, a :: as => (m.step a).bind fun (m', y) => (m'.follow? as).map fun (m'', ys) => (m'', y :: ys)

/-- Monitors that differ in the marks of free slots only yield the same from then on, whatever
actions `follow?` takes. -/
theorem follow?_congr {m n : Monitor κ} (h : m.unmarked = n.unmarked) (as : List (Action κ)) :
    (m.follow? as).map bare = (n.follow? as).map bare := by
  -- By induction on the actions: one step leaves monitors that again differ in such marks only.
  induction as generalizing m n with
  | nil => simp only [follow?, Option.map_some, bare, h]
  | cons a as ih =>
    have hstep : (m.step a).map bare = (n.step a).map bare := by
      rw [← step_unmarked m, ← step_unmarked n, h]
    unfold follow?
    rcases hm : m.step a with - | ⟨m', y⟩ <;> rcases hn : n.step a with - | ⟨n', z⟩ <;>
      simp only [hm, hn, Option.map_none, Option.map_some, Option.some.injEq, bare, Prod.mk.injEq,
        reduceCtorEq] at hstep
    · rfl
    · obtain ⟨heq, rfl⟩ := hstep
      have hrest := congrArg (Option.map fun (m'', ys) => (m'', y :: ys)) (ih heq)
      simp only [Option.bind_some, Option.map_map] at hrest ⊢
      exact hrest

end Monitor

/-! ## What a free slot has kept -/

/-- Whether an effect is a mark of the slot of a write. -/
def Effect.marks (id : WriteId) : Effect → Bool
  | marked i _ => i == id
  | _ => false

/-- The effects since the last release of the slot of a write. -/
def vacancy (id : WriteId) (es : List Effect) : List Effect := es.rtakeWhile (!·.releases id)

/-- Whether the slot of a write was marked since its last release. -/
def isMarked (id : WriteId) (es : List Effect) : Bool := (vacancy id es).any (·.marks id)

variable {es : List Effect} {e : Effect} {id : WriteId} {s : Slot}

/-- An effect that does not release the slot joins its `vacancy`. -/
theorem isMarked_concat (h : e.releases id = false) :
    isMarked id (es ++ [e]) = (isMarked id es || e.marks id) := by
  rw [isMarked, vacancy, List.rtakeWhile_concat_pos _ _ _ (by simp [h]), List.any_append]
  simp [isMarked, vacancy]

/-- A release begins a new `vacancy`, with no mark in it. -/
theorem isMarked_released (h : e.releases id = true) : isMarked id (es ++ [e]) = false := by
  rw [isMarked, vacancy, List.rtakeWhile_concat_neg _ _ _ (by simp [h])]
  rfl

theorem Effect.marks_of_slot_ne (h : e.slot ≠ id) : e.marks id = false := by
  cases e <;> simp_all [slot, marks]

/-- A slot that is free has kept its `generation` and a mark since its last release. -/
def Vacant (es : List Effect) (id : WriteId) (s : Slot) : Prop :=
  s.inUse = false → s = { generation := s.generation, checkpointDone := isMarked id es }

namespace Vacant

/-- A slot of a new table is the default one, which is `Vacant` without a history. -/
theorem create (id : WriteId) : Vacant [] id {} := fun _ => rfl

/-- A slot with `inUse` has no vacancy to account for. -/
theorem of_inUse (h : s.inUse = true) : Vacant es id s := fun hfree => by simp [h] at hfree

/-- An effect on another slot leaves a free slot `Vacant`. -/
theorem frame (h : Vacant es id s) (he : e.slot ≠ id) : Vacant (es ++ [e]) id s := by
  intro hfree
  rw [isMarked_concat (Effect.releases_of_slot_ne he), Effect.marks_of_slot_ne he, Bool.or_false]
  exact h hfree

/-- A release leaves the `reset` slot, and no mark on record. -/
theorem settle (huse : s.inUse = true) (hreleases : e.releases id = s.isDrained) :
    Vacant (es ++ [e]) id s.settle := by
  intro hfree
  have hdrained := (Slot.settle_inUse huse).mp hfree
  rw [isMarked_released (hreleases.trans hdrained), Slot.settle_of_drained huse hdrained]
  rfl

/-- A mark of a free slot stays in it and is on record (`marked`) since the last release. -/
theorem mark (h : Vacant es id s) :
    Vacant (es ++ [.marked id (s.inUse && s.mark.isDrained)]) id s.mark.settle := by
  cases huse : s.inUse with
  | true => exact settle (s := s.mark) huse (by simp [Effect.releases])
  | false =>
    intro _
    have hsettle : s.mark.settle = s.mark := by simp [Slot.settle, Slot.mark, huse]
    rw [isMarked_concat (by simp [Effect.releases]), hsettle, h huse]
    simp [Slot.mark, Effect.marks]

end Vacant

namespace Monitor

variable {κ : Type} [DecidableEq κ] {m : Monitor κ} {as : List (Action κ)} {capacity : Nat}

/-- A free slot of a run has kept its `generation`, and the marks since its last release. -/
theorem Run.vacant (h : Run capacity as m es) :
    ∀ id s, m.table.slot? id = some s → Vacant es id s := by
  induction h with
  | start =>
    intro id s hs
    obtain ⟨hlt, rfl⟩ := Array.getElem?_eq_some_iff.mp hs
    simp only [Table.create, Array.getElem_replicate]
    exact .create id
  | step hrun hstep ih =>
    exact (effected_of_step hstep).preserves ih Vacant.frame (fun _ _ => .of_inUse rfl)
      (fun _ huse => .of_inUse huse) (fun _ huse _ => .settle huse (by simp [Effect.releases]))
      Vacant.mark

/-- What the free slots hold after the effects `es`. -/
structure Vacates (m : Monitor κ) (es : List Effect) : Prop where
  /-- A free slot tells how often it was claimed, and whether it was marked since it is free. -/
  free_eq : ∀ id s, m.table.slot? id = some s → s.inUse = false →
    s = { generation := UInt64.ofNat (claims id es), checkpointDone := isMarked id es }
  /-- It is the reset slot exactly if no mark has come since it is free. -/
  reset_iff : ∀ id s, m.table.slot? id = some s → s.inUse = false →
    (s = s.reset ↔ ∀ e ∈ vacancy id es, e.marks id = false)
  /-- Without these marks every free slot is the reset slot. -/
  unmarked_eq : ∀ id s, m.unmarked.table.slot? id = some s → s.inUse = false → s = s.reset
  /-- Whatever is called from then on, it yields the same without them as with them, and comes to
  the same but for such marks. -/
  unseen : ∀ bs, (m.unmarked.follow? bs).map bare = (m.follow? bs).map bare

/-- Whatever calls come to a table, a free slot has kept its generation, and the marks that came
since its last release; no call can tell it from a slot without these marks (`Vacates`). -/
theorem Run.vacates (h : Run capacity as m es) : Vacates m es := by
  have hkept (id : WriteId) (s : Slot) (hs : m.table.slot? id = some s) (hfree : s.inUse = false) :
      s = { generation := UInt64.ofNat (claims id es), checkpointDone := isMarked id es } := by
    rw [← (h.accounts id s hs).generation_eq]
    exact h.vacant id s hs hfree
  refine ⟨hkept, fun id s hs hfree => ?_, fun id s hs hfree => ?_,
    follow?_congr m.unmarked_unmarked⟩
  · rw [hkept id s hs hfree]
    simp [Slot.reset, isMarked]
  · obtain ⟨u, hu, rfl⟩ := Option.map_eq_some_iff.mp ((slot?_unmarked _ _).symm.trans hs)
    have hfree : u.inUse = false := hfree
    rw [hkept id u hu hfree]
    rfl

/-- The report of its only operation releases slot 0, and a second mark comes after it; slot 1 is
marked once. Both are claimed and used as if nothing had been left in them. -/
theorem vacates_of_second_mark : ∃ (m : Monitor Nat) (es : List Effect),
    Run 2 [.enter 0 (.slot 0), .issue 0, .mark 0, .complete 0 .writeData (some 1), .mark 0,
        .enter 1 (.slot 1), .mark 1] m es ∧
      m.table.slots = #[⟨false, 1, .empty, 0, true⟩, ⟨false, 1, .empty, 0, false⟩] ∧
      isMarked 0 es = true ∧ isMarked 1 es = false ∧ Vacates m es ∧
      (m.unmarked.follow? [.mark 1, .enter 2 (.slot 0), .enter 3 (.slot 1), .issue 0,
          .complete 0 .journalTxe none, .mark 0]).map Prod.snd =
        some [.marked false, .reply (.acquired 2), .reply (.acquired 2), .issued 2,
          .verdict (.accepted true false false), .marked true] := by
  have hend : (trace? 2 [.enter 0 (.slot 0), .issue 0, .mark 0, .complete 0 .writeData (some 1),
      .mark 0, .enter 1 (.slot 1), .mark 1]).any (fun r =>
        r.1.table.slots = #[⟨false, 1, .empty, 0, true⟩, ⟨false, 1, .empty, 0, false⟩] &&
        isMarked 0 r.2 && !isMarked 1 r.2 &&
        (r.1.follow? [.mark 1, .enter 2 (.slot 0), .enter 3 (.slot 1), .issue 0,
          .complete 0 .journalTxe none, .mark 0]).map Prod.snd =
            some [.marked false, .reply (.acquired 2), .reply (.acquired 2), .issued 2,
              .verdict (.accepted true false false), .marked true]) = true := by decide +kernel
  obtain ⟨⟨m, es⟩, htrace, h⟩ := (Option.any_eq_true _ _).mp hend
  simp only [Bool.and_eq_true, decide_eq_true_eq, Bool.not_eq_true'] at h
  obtain ⟨⟨⟨hslots, hmarked⟩, hbare⟩, hyields⟩ := h
  have hvacates := (Run.of_trace? htrace).vacates
  refine ⟨m, es, Run.of_trace? htrace, hslots, hmarked, hbare, hvacates, ?_⟩
  -- What is yielded with the marks is yielded without them.
  have hunseen := congrArg (Option.map Prod.snd) (hvacates.unseen [.mark 1, .enter 2 (.slot 0),
    .enter 3 (.slot 1), .issue 0, .complete 0 .journalTxe none, .mark 0])
  simp only [Option.map_map] at hunseen
  exact hunseen.trans hyields

/-- The checkpoint stage is done with an occupant that leaves, and a second mark comes to the free
slot. It is kept there. -/
theorem mark_left_behind : ∃ (m : Monitor Nat) (es : List Effect) (s : Slot),
    Run 1 [.enter 0 (.slot 0), .mark 0, .mark 0] m es ∧ m.table.slot? 0 = some s ∧
      s.inUse = false ∧ s.checkpointDone = true ∧ s ≠ s.reset := by
  have hend : (trace? 1 [.enter 0 (.slot 0), .mark 0, .mark 0]).any (fun r =>
      r.1.table.slot? 0 = some ⟨false, 1, .empty, 0, true⟩) = true := by decide +kernel
  obtain ⟨⟨m, es⟩, htrace, hslot⟩ := (Option.any_eq_true _ _).mp hend
  exact ⟨m, es, _, Run.of_trace? htrace, of_decide_eq_true hslot, rfl, rfl, by decide⟩

end Monitor

end Table

end WriteAhead
