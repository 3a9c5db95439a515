import WriteAhead.Proofs.List
import WriteAhead.Table.Basic

/-!
# What the operations of a table do to its slots

Every operation of the request table either leaves all slots as they are or replaces the slot of one
write. `Table.Replaces` names the slot before and after, and each operation has one lemma that reads
off its answer which slot it put where. The count of slots in use follows from `Replaces` alone.

## Key results

- `acquire_granted`, `recordIssue_ok`, `markCheckpointDone_ok`: the slot that each of them puts back
- `recordCompletion_cases`: a report is refused and changes no slot, or it is accepted
- `Replaces.isCounted`: `inFlight` stays the number of slots in use
-/

namespace WriteAhead

/-! ## Sizes of sets of operations -/

namespace OpSet

@[simp] theorem size_empty : empty.size = 0 := by decide

@[simp] theorem size_full : full.size = 7 := by decide

/-- The `size` of a set grows by one with each operation that it lacked. -/
theorem size_insert {s : OpSet} {op : Operation} (h : s.contains op = false) :
    (s.insert op).size = s.size + 1 := by
  have hperm : ((s.insert op).toList).Perm (op :: s.toList) := by
    rw [List.perm_ext_iff_of_nodup]
    · intro o
      simp only [toList, List.mem_filter, Operation.mem_all, true_and, contains_insert,
        List.mem_cons, Bool.or_eq_true, decide_eq_true_eq]
      exact or_comm
    · exact List.Nodup.sublist List.filter_sublist (by decide)
    · rw [List.nodup_cons]
      refine ⟨by simp [toList, h], List.Nodup.sublist List.filter_sublist (by decide)⟩
  rw [size, size, hperm.length_eq, List.length_cons]

/-- A set is `full` exactly if it has every operation. -/
theorem eq_full_iff {s : OpSet} : s = full ↔ ∀ op, s.contains op = true := by
  constructor
  · rintro rfl op
    exact contains_full op
  · intro h
    ext op
    rw [h op, contains_full]

end OpSet

namespace Slot

/-- The slot after a report of an operation that its occupant lacked. -/
def complete (s : Slot) (op : Operation) : Slot :=
  { s with completed := s.completed.insert op, pendingIo := s.pendingIo - 1 }

/-- The slot after an operation was put on record. -/
def issue (s : Slot) : Slot := { s with pendingIo := s.pendingIo + 1 }

/-- The slot once the checkpoint stage is done with its occupant. -/
def mark (s : Slot) : Slot := { s with checkpointDone := true }

/-- The slot as it is left behind: free if it was in use and nothing keeps its occupant. -/
def settle (s : Slot) : Slot := if s.inUse && s.isDrained then s.reset else s

/-- As long as something keeps the occupant, `settle` leaves the slot as it is. -/
theorem settle_of_not_drained {s : Slot} (h : s.isDrained = false) : s.settle = s := by
  simp [settle, h]

/-- A slot in use is given back by `settle` once nothing keeps its occupant. -/
theorem settle_of_drained {s : Slot} (huse : s.inUse = true) (h : s.isDrained = true) :
    s.settle = s.reset := by
  simp [settle, huse, h]

/-- A slot in use is left free by `settle` exactly if `isDrained` says that nothing keeps its
occupant. -/
theorem settle_inUse {s : Slot} (huse : s.inUse = true) :
    s.settle.inUse = false ↔ s.isDrained = true := by
  cases hdrained : s.isDrained with
  | true => simp [settle_of_drained huse hdrained, reset]
  | false => simp [settle_of_not_drained hdrained, huse]

/-- Only a slot in use `accepts` a report, with a generation or without. -/
theorem inUse_of_accepts {s : Slot} {g : Option Generation} (h : s.accepts g = true) :
    s.inUse = true := by
  simp only [accepts, Bool.and_eq_true] at h
  exact h.1

end Slot

namespace Table

/-! ## Replacing one slot -/

/-- `t'` has the slot `s'` of a write where `t` has `s`; `inFlight` follows. -/
structure Replaces (t t' : Table) (id : WriteId) (s s' : Slot) : Prop where
  old : t.slot? id = some s
  slots_eq : t'.slots = t.slots.setIfInBounds id s'
  isShutDown_eq : t'.isShutDown = t.isShutDown
  inFlight_eq : t'.inFlight = t.inFlight + s'.inUse.toNat - s.inUse.toNat

namespace Replaces

variable {t t' : Table} {id : WriteId} {s s' : Slot}

/-- What `slot?` finds after one slot has been replaced: the new slot there, the old ones
elsewhere. -/
theorem slot? (h : Replaces t t' id s s') (i : WriteId) :
    t'.slot? i = if i = id then some s' else t.slot? i := by
  have hold := h.old
  simp only [Table.slot?] at hold ⊢
  rw [h.slots_eq, Array.getElem?_setIfInBounds]
  have hlt : id < t.slots.size := (Array.getElem?_eq_some_iff.mp hold).1
  by_cases hi : i = id
  · subst hi
    simp [hlt]
  · simp [hi, Ne.symm hi]

/-- The new slot stands where the old one stood: `slot?` finds it. -/
theorem slot?_self (h : Replaces t t' id s s') : t'.slot? id = some s' := by
  rw [h.slot?, if_pos rfl]

/-- Every other `slot?` is as it was, so a proof about one slot need not look at them. -/
theorem slot?_of_ne (h : Replaces t t' id s s') {i : WriteId} (hi : i ≠ id) :
    t'.slot? i = t.slot? i := by
  rw [h.slot?, if_neg hi]

end Replaces

/-- Changing a slot in place with `modify` puts the changed one back. -/
theorem slots_modify {t : Table} {id : WriteId} {s : Slot} (h : t.slot? id = some s)
    (f : Slot → Slot) : (t.modify id f).slots = t.slots.setIfInBounds id (f s) := by
  apply Array.ext_getElem?
  intro i
  simp only [slot?] at h
  simp only [modify, Array.getElem?_modify, Array.getElem?_setIfInBounds]
  by_cases hi : id = i
  · subst hi
    obtain ⟨hlt, heq⟩ := Array.getElem?_eq_some_iff.mp h
    simp [hlt, heq]
  · simp [hi]

/-- A slot that stays as it is counts as replaced by itself, so that `Replaces` covers a
`tryRelease` that releases nothing. -/
theorem Replaces.refl {t : Table} {id : WriteId} {s : Slot} (h : t.slot? id = some s) :
    Replaces t t id s s := by
  obtain ⟨hlt, rfl⟩ := Array.getElem?_eq_some_iff.mp h
  refine ⟨h, ?_, rfl, by simp⟩
  rw [Array.setIfInBounds_def, dif_pos hlt, Array.set_getElem_self]

/-! ## The operations -/

/-- A claim is granted if the slot is free and the table is not shut down. The occupant gets the
next generation, and the slot is `occupy` of what it was. -/
theorem acquire_granted {t t' : Table} {id : WriteId} {g : Generation}
    (h : t.acquire id = .granted t' g) :
    ∃ s, s.inUse = false ∧ t.isShutDown = false ∧ g = s.generation + 1 ∧
      Replaces t t' id s s.occupy := by
  unfold acquire at h
  split at h
  · exact nomatch h
  · rename_i s hs
    split at h
    · exact nomatch h
    · rename_i hdown
      split at h
      · exact nomatch h
      · rename_i huse
        have huse : s.inUse = false := by simpa using huse
        obtain ⟨rfl, rfl⟩ := Claim.granted.inj h
        exact ⟨s, huse, by simpa using hdown, rfl, hs, slots_modify hs _, rfl,
          by simp [huse, Slot.occupy]⟩

/-- A slot in use is granted to nobody by `acquire`. -/
theorem acquire_ne_granted {t t' : Table} {id : WriteId} {s : Slot} {g : Generation}
    (hs : t.slot? id = some s) (huse : s.inUse = true) : t.acquire id ≠ .granted t' g := by
  intro h
  obtain ⟨s', hfree, -, -, hrep⟩ := acquire_granted h
  rw [hrep.old, Option.some.injEq] at hs
  rw [hs, huse] at hfree
  exact nomatch hfree

/-- A claim waits (`Claim.busy`) only for a slot in use, of a table that is not shut down. -/
theorem acquire_busy {t : Table} {id : WriteId} (h : t.acquire id = .busy) :
    t.isShutDown = false ∧ ∃ s, t.slot? id = some s ∧ s.inUse = true := by
  unfold acquire at h
  split at h
  · exact nomatch h
  · rename_i s hs
    split at h
    · exact nomatch h
    · rename_i hdown
      split at h
      · rename_i huse
        exact ⟨by simpa using hdown, s, hs, huse⟩
      · exact nomatch h

/-- A claim is refused by `acquire` for want of a slot, or after a shutdown; the missing slot comes
first. -/
theorem acquire_refused {t : Table} {id : WriteId} {e : JournalError}
    (h : t.acquire id = .refused e) :
    (t.slot? id = none ∧ e = .invalidWriteId id (t.capacity - 1)) ∨
      ((∃ s, t.slot? id = some s) ∧ t.isShutDown = true ∧ e = .shutDown) := by
  unfold acquire at h
  split at h
  · rename_i hnone
    exact .inl ⟨hnone, (Claim.refused.inj h).symm⟩
  · rename_i s hs
    split at h
    · rename_i hdown
      exact .inr ⟨⟨s, hs⟩, hdown, (Claim.refused.inj h).symm⟩
    · split at h <;> exact nomatch h

/-- When `recordIssue` succeeds the slot is in use, and counts one operation more. The token gets
the generation of the slot. -/
theorem recordIssue_ok {t t' : Table} {id : WriteId} {g : Generation}
    (h : t.recordIssue id = .ok (t', g)) :
    ∃ s, s.inUse = true ∧ g = s.generation ∧ Replaces t t' id s s.issue := by
  unfold recordIssue at h
  split at h
  · exact nomatch h
  · rename_i s hs
    split at h
    · exact nomatch h
    · rename_i huse
      split at h
      · exact nomatch h
      · have huse : s.inUse = true := by simpa using huse
        obtain ⟨rfl, rfl⟩ := Prod.mk.inj (Except.ok.inj h)
        exact ⟨s, huse, rfl, hs, slots_modify hs _, rfl, by simp [huse, modify, Slot.issue]⟩

/-- With a slot in use whose `pendingIo` has a next value, `recordIssue` succeeds. -/
theorem recordIssue_eq_ok {t : Table} {id : WriteId} {s : Slot} (hs : t.slot? id = some s)
    (huse : s.inUse = true) (hpending : s.pendingIo < maxPending) :
    ∃ t', t.recordIssue id = .ok (t', s.generation) := by
  have : ¬ maxPending ≤ s.pendingIo := by omega
  simp [recordIssue, hs, huse, this]

/-- What `tryRelease` tells is whether it released the slot, and it leaves it settled. -/
theorem tryRelease_eq {t : Table} {id : WriteId} {s : Slot} (hs : t.slot? id = some s) :
    (t.tryRelease id).2 = (s.inUse && s.isDrained) ∧
      Replaces t (t.tryRelease id).1 id s s.settle := by
  simp only [tryRelease, hs, Slot.settle]
  split
  · rename_i hdrained
    have huse : s.inUse = true := by simp at hdrained; exact hdrained.1
    exact ⟨hdrained.symm, hs, slots_modify hs _, rfl, by simp [huse, Slot.reset]⟩
  · rename_i hdrained
    exact ⟨by simpa using hdrained, Replaces.refl hs⟩

/-- Changing a slot that stays in use and then `tryRelease`: the slot is replaced once, by the
settled form of the changed one. -/
private theorem Replaces.modify_tryRelease {t : Table} {id : WriteId} {s : Slot} (s' : Slot)
    (hs : t.slot? id = some s) (f : Slot → Slot) (hf : f s = s') (huse : s'.inUse = s.inUse) :
    ((t.modify id f).tryRelease id).2 = (s'.inUse && s'.isDrained) ∧
      Replaces t ((t.modify id f).tryRelease id).1 id s s'.settle := by
  subst hf
  -- The changed slot is in the table between the two, and only there.
  have hmid : Replaces t (t.modify id f) id s (f s) :=
    ⟨hs, slots_modify hs f, rfl, by simp [huse, modify]⟩
  obtain ⟨hreleased, hrep⟩ := tryRelease_eq hmid.slot?_self
  refine ⟨hreleased, hs, ?_, ?_, ?_⟩
  · rw [hrep.slots_eq, hmid.slots_eq, Array.setIfInBounds_setIfInBounds]
  · rw [hrep.isShutDown_eq, hmid.isShutDown_eq]
  · rw [hrep.inFlight_eq, huse]
    rfl

/-- A mark with `markCheckpointDone` settles the marked slot. It does not ask whether the slot is in
use, but a free slot is not released again. -/
theorem markCheckpointDone_ok {t t' : Table} {id : WriteId} {released : Bool}
    (h : t.markCheckpointDone id = .ok (t', released)) :
    ∃ s, released = (s.inUse && s.mark.isDrained) ∧ Replaces t t' id s s.mark.settle := by
  unfold markCheckpointDone at h
  split at h
  · exact nomatch h
  · rename_i s hs
    obtain ⟨hreleased, hrep⟩ := Replaces.modify_tryRelease s.mark hs
      (fun s => { s with checkpointDone := true }) rfl rfl
    rw [Except.ok.inj h] at hreleased hrep
    exact ⟨s, hreleased, hrep⟩

/-- What an accepted report is told: whether the join of the stage holds with it, whether it came
without an issue on record, and whether it drained the slot. -/
def Verdict.ofSlot (s : Slot) (op : Operation) : Verdict :=
  .accepted ((s.completed.insert op).containsAll op.stage.join) (s.pendingIo == 0)
    (s.complete op).isDrained

/-- Whether the report was noted. -/
def Verdict.isAccepted : Verdict → Bool
  | .accepted .. => true
  | .unknown | .stale _ | .duplicate => false

/-- A report is accepted by `recordCompletion` exactly if it is for the occupant and new to it. Then
the slot is settled with the operation in it, and the verdict is `Verdict.ofSlot`; else no slot
changes. -/
theorem recordCompletion_cases {t t' : Table} {id : WriteId} {op : Operation}
    {g : Option Generation} {v : Verdict} (h : t.recordCompletion id op g = (t', v)) :
    (v.isAccepted = false ∧ t'.slots = t.slots ∧ t'.isShutDown = t.isShutDown ∧
        t'.inFlight = t.inFlight ∧
        ∀ s, t.slot? id = some s → s.accepts g = true → s.completed.contains op = true) ∨
      ∃ s, s.accepts g = true ∧ s.completed.contains op = false ∧ v = Verdict.ofSlot s op ∧
        Replaces t t' id s (s.complete op).settle := by
  unfold recordCompletion at h
  split at h
  · rename_i hs
    obtain ⟨rfl, rfl⟩ := Prod.mk.inj h
    exact .inl ⟨rfl, rfl, rfl, rfl, by simp [hs]⟩
  · rename_i s hs
    split at h
    · -- For somebody else, or for nobody: a refusal that says nothing about the operation.
      rename_i haccepts
      obtain ⟨rfl, rfl⟩ := Prod.mk.inj h
      refine .inl ⟨rfl, rfl, rfl, rfl, fun s' hs' ha => ?_⟩
      rw [hs, Option.some.injEq] at hs'
      subst hs'
      simp [ha] at haccepts
    · -- For somebody else, or for nobody: a refusal that says nothing about the operation.
      rename_i haccepts
      have haccepts : s.accepts g = true := by simpa using haccepts
      split at h
      · -- The operation was reported before.
        rename_i hcontains
        obtain ⟨rfl, rfl⟩ := Prod.mk.inj h
        refine .inl ⟨rfl, rfl, rfl, rfl, fun s' hs' _ => ?_⟩
        rw [hs, Option.some.injEq] at hs'
        exact hs' ▸ hcontains
      · -- The operation was reported before.
        rename_i hcontains
        have huse := Slot.inUse_of_accepts haccepts
        obtain ⟨hreleased, hrep⟩ := Replaces.modify_tryRelease (s.complete op) hs
          (fun s => { s with completed := s.completed.insert op, pendingIo := s.pendingIo - 1 })
          rfl rfl
        -- The pair that a release yields is opened only once its parts are known.
        generalize Table.tryRelease _ id = r at h hreleased hrep
        obtain ⟨rfl, rfl⟩ := Prod.mk.inj h
        refine .inr ⟨s, haccepts, by simpa using hcontains, ?_, hrep⟩
        rw [hreleased, Verdict.ofSlot]
        simp [Slot.complete, huse]

/-- A report with `recordCompletion` does not shut a table down. -/
theorem recordCompletion_isShutDown {t t' : Table} {id : WriteId} {op : Operation}
    {g : Option Generation} {v : Verdict} (h : t.recordCompletion id op g = (t', v)) :
    t'.isShutDown = t.isShutDown := by
  rcases recordCompletion_cases h with ⟨-, -, hdown, -, -⟩ | ⟨s, -, -, -, hrep⟩
  · exact hdown
  · exact hrep.isShutDown_eq

/-- The slots of a table that `create` makes are free. -/
theorem inUse_of_create {id : WriteId} {s : Slot} (capacity : Nat)
    (h : (create capacity).slot? id = some s) : s.inUse = false := by
  simp only [create, slot?] at h
  obtain ⟨hi, rfl⟩ := Array.getElem?_eq_some_iff.mp h
  rw [Array.getElem_replicate]

/-! ## Counting slots in use -/

/-- `inFlight` is the number of slots in use. -/
def IsCounted (t : Table) : Prop := t.inFlight = t.slots.countP (·.inUse)

/-- A new table has nothing in flight, and no slot in use: `IsCounted` holds. -/
theorem isCounted_create (capacity : Nat) : (create capacity).IsCounted := by
  rw [IsCounted, create, Array.countP_replicate]
  simp

/-- The count `inFlight` follows a slot that is replaced, so it stays the number of slots in use. -/
theorem Replaces.isCounted {t t' : Table} {id : WriteId} {s s' : Slot}
    (h : Replaces t t' id s s') (hc : t.IsCounted) : t'.IsCounted := by
  obtain ⟨hlt, heq⟩ := Array.getElem?_eq_some_iff.mp h.old
  have hslots : t'.slots = t.slots.set id s' hlt := by
    rw [h.slots_eq, Array.setIfInBounds_def, dif_pos hlt]
  have hpos : s.inUse = true → 0 < t.slots.countP (·.inUse) := fun hs =>
    Array.countP_pos_iff.mpr ⟨s, heq ▸ Array.getElem_mem hlt, hs⟩
  unfold IsCounted at hc ⊢
  rw [h.inFlight_eq, hc, hslots, Array.countP_set, heq]
  -- Only a slot that becomes free takes one away, and then there was one to count.
  cases hs : s.inUse <;> cases hs' : s'.inUse <;> simp
  have := hpos hs
  omega

/-- A slot that is freed was counted: `inFlight` falls by one. -/
theorem Replaces.inFlight_of_freed {t t' : Table} {id : WriteId} {s s' : Slot}
    (h : Replaces t t' id s s') (hc : t.IsCounted) (huse : s.inUse = true)
    (hfree : s'.inUse = false) : t'.inFlight + 1 = t.inFlight := by
  have hmem : s ∈ t.slots := Array.mem_of_getElem? h.old
  have hpos : 0 < t.slots.countP (·.inUse) := Array.countP_pos_iff.mpr ⟨s, hmem, huse⟩
  have hflight := h.inFlight_eq
  rw [huse, hfree, hc] at hflight
  rw [hc]
  simp only [Bool.toNat_true, Bool.toNat_false] at hflight
  omega

/-- The count `inFlight` is 0 exactly if no slot is in use. -/
theorem IsCounted.inFlight_eq_zero_iff {t : Table} (h : t.IsCounted) :
    t.inFlight = 0 ↔ ∀ id s, t.slot? id = some s → s.inUse = false := by
  rw [h, Array.countP_eq_zero]
  constructor
  · intro hall id s hs
    have := hall s (Array.mem_of_getElem? hs)
    simpa using this
  · intro hall s hs
    obtain ⟨id, hid⟩ := Array.getElem?_of_mem hs
    simp [hall id s hid]

/-- A list of the ids whose slots are in use, without duplicates, is as long as `inFlight` says. -/
theorem IsCounted.inFlight_eq_length {t : Table} {ids : List WriteId} (h : t.IsCounted)
    (hnodup : ids.Nodup) (hids : ∀ id, id ∈ ids ↔ ∃ s, t.slot? id = some s ∧ s.inUse = true) :
    t.inFlight = ids.length := by
  rw [h, ← Array.countP_toList]
  exact List.countP_eq_length_of_nodup hnodup (by simpa [slot?] using hids)

end Table

end WriteAhead
