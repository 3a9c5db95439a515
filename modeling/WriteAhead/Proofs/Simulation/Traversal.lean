import Mathlib.Data.List.Nodup
import Mathlib.Data.List.Perm.Subperm
import WriteAhead.Device.Basic

/-!
# What one request leaves in the log of a device

A request goes through the stages one after the other, and the device notes each of its operations
twice: when it is issued and when it is completed. `Traversal` says in which order this can be, for
a request that may still be on its way. `Traversal.issue` and `Traversal.complete` are the two ways
in which it grows.
-/

namespace WriteAhead

namespace IoEvent

/-- The operation that is issued. -/
def issued? : IoEvent → Option Operation
  | ⟨.issued, _, op⟩ => some op
  | ⟨.completed, _, _⟩ => none

/-- The operation that is completed. -/
def completed? : IoEvent → Option Operation
  | ⟨.completed, _, op⟩ => some op
  | ⟨.issued, _, _⟩ => none

variable {id : WriteId} {log : List IoEvent} {op : Operation}

@[simp] theorem filterMap_issued?_issued :
    (log ++ [mk .issued id op]).filterMap issued? = log.filterMap issued? ++ [op] :=
  List.filterMap_append

@[simp] theorem filterMap_completed?_issued :
    (log ++ [mk .issued id op]).filterMap completed? = log.filterMap completed? :=
  List.filterMap_append.trans (List.append_nil _)

@[simp] theorem filterMap_issued?_completed :
    (log ++ [mk .completed id op]).filterMap issued? = log.filterMap issued? :=
  List.filterMap_append.trans (List.append_nil _)

@[simp] theorem filterMap_completed?_completed :
    (log ++ [mk .completed id op]).filterMap completed? = log.filterMap completed? ++ [op] :=
  List.filterMap_append

end IoEvent

variable {id : WriteId} {log : List IoEvent} {op : Operation}

/-- The part of a log that one request has left there. -/
structure Traversal (id : WriteId) (log : List IoEvent) : Prop where
  own : ∀ e ∈ log, e.writeId = id
  /-- Operations are issued once each, stage by stage and in the order of their stage. -/
  inOrder : log.filterMap IoEvent.issued? <+: Stage.all.flatMap Stage.operations
  /-- No operation is completed twice. -/
  once : (log.filterMap IoEvent.completed?).Nodup
  /-- An operation is completed after it was issued. -/
  answered : ∀ before op, before ++ [⟨.completed, id, op⟩] <+: log →
    op ∈ before.filterMap IoEvent.issued?
  /-- An operation is issued after every operation of the earlier stages was completed. -/
  staged : ∀ before op, before ++ [⟨.issued, id, op⟩] <+: log →
    ∀ o : Operation, o.stage.index < op.stage.index → o ∈ before.filterMap IoEvent.completed?

/-- The part of a log that one request has left there once it has gone through all stages. -/
structure Traversal.Whole (id : WriteId) (log : List IoEvent) : Prop extends Traversal id log where
  issued : log.filterMap IoEvent.issued? = Stage.all.flatMap Stage.operations
  completed : ∀ op, op ∈ log.filterMap IoEvent.completed?

/-- Stage by stage the `operations` are in pipeline order. -/
theorem Stage.flatMap_operations : Stage.all.flatMap Stage.operations = Operation.all := by decide

namespace Traversal

theorem nil (id : WriteId) : Traversal id [] :=
  ⟨nofun, List.nil_prefix, List.nodup_nil, fun _ _ h => absurd (List.prefix_nil.mp h) (by simp),
    fun _ _ h => absurd (List.prefix_nil.mp h) (by simp)⟩

/-- The next operation is issued, once all of the earlier stages are completed, and the log is a
`Traversal` still. -/
theorem issue (h : Traversal id log)
    (hnext : log.filterMap IoEvent.issued? ++ [op] <+: Stage.all.flatMap Stage.operations)
    (hstaged : ∀ o : Operation, o.stage.index < op.stage.index →
      o ∈ log.filterMap IoEvent.completed?) : Traversal id (log ++ [⟨.issued, id, op⟩]) := by
  refine ⟨fun e he => ?_, ?_, ?_, fun before o hb => ?_, fun before o hb => ?_⟩
  · rcases List.mem_append.mp he with he | he
    · exact h.own e he
    · rw [List.mem_singleton.mp he]
  · rw [IoEvent.filterMap_issued?_issued]
    exact hnext
  · rw [IoEvent.filterMap_completed?_issued]
    exact h.once
  · rcases List.prefix_concat_iff.mp hb with heq | hb
    · exact nomatch List.singleton_inj.mp (List.append_inj' heq rfl).2
    · exact h.answered before o hb
  · rcases List.prefix_concat_iff.mp hb with heq | hb
    · obtain ⟨rfl, hlast⟩ := List.append_inj' heq rfl
      obtain ⟨-, -, rfl⟩ := IoEvent.mk.inj (List.singleton_inj.mp hlast)
      exact hstaged
    · exact h.staged before o hb

/-- An issued operation is completed, and the log is a `Traversal` still. -/
theorem complete (h : Traversal id log) (hissued : op ∈ log.filterMap IoEvent.issued?)
    (hnew : op ∉ log.filterMap IoEvent.completed?) :
    Traversal id (log ++ [⟨.completed, id, op⟩]) := by
  refine ⟨fun e he => ?_, ?_, ?_, fun before o hb => ?_, fun before o hb => ?_⟩
  · rcases List.mem_append.mp he with he | he
    · exact h.own e he
    · rw [List.mem_singleton.mp he]
  · rw [IoEvent.filterMap_issued?_completed]
    exact h.inOrder
  · rw [IoEvent.filterMap_completed?_completed, ← List.concat_eq_append, List.nodup_concat]
    exact ⟨hnew, h.once⟩
  · rcases List.prefix_concat_iff.mp hb with heq | hb
    · obtain ⟨rfl, hlast⟩ := List.append_inj' heq rfl
      obtain ⟨-, -, rfl⟩ := IoEvent.mk.inj (List.singleton_inj.mp hlast)
      exact hissued
    · exact h.answered before o hb
  · rcases List.prefix_concat_iff.mp hb with heq | hb
    · exact nomatch List.singleton_inj.mp (List.append_inj' heq rfl).2
    · exact h.staged before o hb

/-- What is completed (`completed?`) was issued. -/
theorem issued_of_completed (h : Traversal id log)
    (hcompleted : op ∈ log.filterMap IoEvent.completed?) : op ∈ log.filterMap IoEvent.issued? := by
  obtain ⟨⟨kind, i, o⟩, hmem, hop⟩ := List.mem_filterMap.mp hcompleted
  obtain rfl : i = id := h.own _ hmem
  cases kind with
  | issued => exact nomatch hop
  | completed =>
    obtain rfl := Option.some.inj hop
    obtain ⟨before, after, rfl⟩ := List.append_of_mem hmem
    have hissued := h.answered before o ⟨after, List.append_cons .. ▸ rfl⟩
    rw [List.filterMap_append]
    exact List.mem_append_left _ hissued

/-- A request that has everything completed has gone through all stages: its traversal is
`Whole`. -/
theorem whole (h : Traversal id log) (hall : ∀ op, op ∈ log.filterMap IoEvent.completed?) :
    Traversal.Whole id log := by
  have hsub : (Stage.all.flatMap Stage.operations) ⊆ log.filterMap IoEvent.issued? :=
    fun op _ => h.issued_of_completed (hall op)
  have hnodup : (Stage.all.flatMap Stage.operations).Nodup := by decide
  -- All operations are issued, so the issues are no proper prefix of them.
  have hle := (List.Nodup.subperm hnodup hsub).length_le
  exact ⟨h, h.inOrder.eq_of_length (Nat.le_antisymm h.inOrder.length_le hle), hall⟩

/-- Nothing is noted before the first event that is `issued?`. -/
theorem eq_nil (h : Traversal id log) (hnone : log.filterMap IoEvent.issued? = []) : log = [] := by
  cases log with
  | nil => rfl
  | cons e rest =>
    obtain ⟨kind, i, op⟩ := e
    obtain rfl : i = id := h.own _ List.mem_cons_self
    cases kind with
    | issued => exact nomatch hnone
    | completed => exact nomatch h.answered [] op ⟨rest, rfl⟩

end Traversal

end WriteAhead
