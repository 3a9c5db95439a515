import Mathlib.Data.List.Induction
import Mathlib.Data.List.Perm.Subperm
import WriteAhead.Journal.Event
import WriteAhead.Proofs.Table.Slots

/-!
# What the history tells of an occupant

A slot has one occupant after the other, and the history of a run tells what happened to each of
them: `since id` are the events since the last claim on the slot of a write. `Occupancy` ties the
fields of a slot to that part of the history, and each operation of the table keeps the tie by
adding its own event.

## Key results

- `Occupancy.claim`, `Occupancy.issue`, `Occupancy.report`: the operations that tell something new
- `Occupancy.inert`: events that are not about the occupant change nothing
- `Occupancy.balanced_iff`: when no report came before its time
-/

namespace WriteAhead

/-! ## Events about an occupant -/

namespace Event

/-- Whether an event claims the slot of a write for a new occupant. -/
def acquires (id : WriteId) : Event → Bool
  | .acquired i _ => i == id
  | _ => false

/-- Whether an event releases the slot of a write. -/
def releases (id : WriteId) : Event → Bool
  | .reported i _ _ (.accepted _ _ released) | .checkpointed i released => i == id && released
  | _ => false

/-- The operation that an event puts on record for a write. -/
def issues? (id : WriteId) : Event → Option Operation
  | .issued _ t => if t.writeId = id then some t.operation else none
  | _ => none

/-- The operation of a write that is noted as complete with an event. -/
def completes? (id : WriteId) : Event → Option Operation
  | .reported i op _ v => if i = id ∧ v.isAccepted = true then some op else none
  | _ => none

/-- Whether an operation of a write is noted as complete while none is outstanding. -/
def isUncounted (id : WriteId) : Event → Bool
  | .reported i _ _ (.accepted _ unissued _) => i == id && unissued
  | _ => false

/-- The write whose slot an event is about. -/
def slot? : Event → Option WriteId
  | .acquired i _ | .reported i _ _ _ | .checkpointed i _ => some i
  | .issued _ t => some t.writeId
  | _ => none

/-- Whether an event changes nothing for the occupant of a slot. -/
structure IsInert (id : WriteId) (e : Event) : Prop where
  acquires : e.acquires id = false
  releases : e.releases id = false
  issues? : e.issues? id = none
  completes? : e.completes? id = none
  isUncounted : e.isUncounted id = false

/-- An event about another slot `IsInert` for the occupant of this one. -/
theorem isInert_of_slot?_ne {id : WriteId} {e : Event} (h : e.slot? ≠ some id) : e.IsInert id := by
  cases e with
  | acquired i g =>
    have hi : i ≠ id := fun hi => h (hi ▸ rfl)
    exact ⟨by simp [Event.acquires, hi], rfl, rfl, rfl, rfl⟩
  | issued s t =>
    have hi : t.writeId ≠ id := fun hi => h (hi ▸ rfl)
    exact ⟨rfl, rfl, by simp [Event.issues?, hi], rfl, rfl⟩
  | reported i op g v =>
    have hi : i ≠ id := fun hi => h (hi ▸ rfl)
    refine ⟨rfl, ?_, rfl, by simp [Event.completes?, hi], ?_⟩
    · cases v <;> simp [Event.releases, hi]
    · cases v <;> simp [Event.isUncounted, hi]
  | checkpointed i released =>
    have hi : i ≠ id := fun hi => h (hi ▸ rfl)
    exact ⟨rfl, by simp [Event.releases, hi], rfl, rfl, rfl⟩
  | _ => exact ⟨rfl, rfl, rfl, rfl, rfl⟩

/-- An event about no slot `IsInert` for every occupant. -/
theorem isInert_of_slot?_eq_none {id : WriteId} {e : Event} (h : e.slot? = none) : e.IsInert id :=
  isInert_of_slot?_ne (by rw [h]; exact nofun)

/-- An event about the slot of one write `IsInert` for the occupant of another. -/
theorem isInert_of_slot?_eq_some {id i : WriteId} {e : Event} (h : e.slot? = some i)
    (hne : id ≠ i) : e.IsInert id :=
  isInert_of_slot?_ne (by rw [h, ne_eq, Option.some.injEq]; exact Ne.symm hne)

/-- A report that is refused `IsInert`: nothing is noted. -/
theorem isInert_of_refused {id i : WriteId} {op : Operation} {g : Option Generation}
    {v : Table.Verdict} (h : v.isAccepted = false) : (Event.reported i op g v).IsInert id := by
  refine ⟨rfl, ?_, rfl, by simp [Event.completes?, h], ?_⟩
  · cases v with
    | accepted => exact nomatch h
    | unknown | stale | duplicate => rfl
  · cases v with
    | accepted => exact nomatch h
    | unknown | stale | duplicate => rfl

/-- A mark that does not release the slot `IsInert`. -/
theorem isInert_of_not_released {id i : WriteId} : (Event.checkpointed i false).IsInert id :=
  ⟨rfl, by simp [Event.releases], rfl, rfl, rfl⟩

end Event

/-! ## The history of an occupant -/

variable {id : WriteId} {es es' : List Event} {e : Event}

/-- The events since the last claim on the slot of a write. -/
def since (id : WriteId) (es : List Event) : List Event :=
  es.foldl (fun recent e => if e.acquires id then [] else recent ++ [e]) []

/-- The operations that were put on record for a write. -/
def issues (id : WriteId) (es : List Event) : List Operation := es.filterMap (Event.issues? id)

/-- The operations of a write that were noted as complete. -/
def completions (id : WriteId) (es : List Event) : List Operation :=
  es.filterMap (Event.completes? id)

/-- How many operations of a write were noted as complete while none was outstanding. -/
def uncounted (id : WriteId) (es : List Event) : Nat := es.countP (Event.isUncounted id)

/-- Whether at no time more operations of a write had been noted as complete than were on record. -/
def Balanced (id : WriteId) (es : List Event) : Prop :=
  ∀ before, before <+: es → (completions id before).length ≤ (issues id before).length

/-- Events without a claim on the slot follow what there is `since` the last one. -/
theorem since_append (h : ∀ e ∈ es', e.acquires id = false) :
    since id (es ++ es') = since id es ++ es' := by
  unfold since
  rw [List.foldl_append]
  generalize es.foldl _ [] = recent
  induction es' generalizing recent with
  | nil => rw [List.foldl_nil, List.append_nil]
  | cons e es' ih =>
    rw [List.forall_mem_cons] at h
    rw [List.foldl_cons, h.1, if_neg (by simp), ih h.2, List.append_assoc, List.singleton_append]

/-- Nothing is `since` a claim that has just been made. -/
theorem since_acquired (g : Generation) : since id (es ++ [.acquired id g]) = [] := by
  simp [since, Event.acquires]

/-- The `issues` of two histories follow each other. -/
theorem issues_append : issues id (es ++ es') = issues id es ++ issues id es' :=
  List.filterMap_append

/-- The `completions` of two histories follow each other. -/
theorem completions_append :
    completions id (es ++ es') = completions id es ++ completions id es' := List.filterMap_append

/-- The `uncounted` reports of two histories add up. -/
theorem uncounted_append : uncounted id (es ++ es') = uncounted id es + uncounted id es' :=
  List.countP_append

/-- What is noted as complete while nothing is outstanding is noted as complete, so `uncounted`
counts some of the `completions`. -/
theorem uncounted_le_completions (id : WriteId) (es : List Event) :
    uncounted id es ≤ (completions id es).length := by
  rw [uncounted, completions, List.length_filterMap_eq_countP]
  refine List.countP_mono_left fun e _ he => ?_
  cases e with
  | reported i op g v =>
    cases v with
    | accepted joined unissued released =>
      have hid : i = id := by simp [Event.isUncounted] at he; exact he.1
      simp [Event.completes?, hid, Table.Verdict.isAccepted]
    | unknown | stale | duplicate => exact nomatch he
  | _ => exact nomatch he

theorem issues_of_inert (h : ∀ e ∈ es, e.IsInert id) : issues id es = [] :=
  List.filterMap_eq_nil_iff.mpr fun e he => (h e he).issues?

theorem completions_of_inert (h : ∀ e ∈ es, e.IsInert id) : completions id es = [] :=
  List.filterMap_eq_nil_iff.mpr fun e he => (h e he).completes?

theorem uncounted_of_inert (h : ∀ e ∈ es, e.IsInert id) : uncounted id es = 0 :=
  List.countP_eq_zero.mpr fun e he => by simp [(h e he).isUncounted]

/-- Inert events add nothing to the `issues` of an occupant. -/
theorem issues_since_of_inert (h : ∀ e ∈ es', e.IsInert id) :
    issues id (since id (es ++ es')) = issues id (since id es) := by
  rw [since_append fun e he => (h e he).acquires, issues_append, issues_of_inert h, List.append_nil]

/-- What was `Balanced` remains so after one more event that keeps the count. -/
theorem balanced_concat : Balanced id (es ++ [e]) ↔
    Balanced id es ∧ (completions id (es ++ [e])).length ≤ (issues id (es ++ [e])).length := by
  constructor
  · intro h
    exact ⟨fun before hb => h before (hb.trans (List.prefix_append _ _)), h _ List.prefix_rfl⟩
  · rintro ⟨hes, he⟩ before hb
    rcases List.prefix_concat_iff.mp hb with rfl | hb
    · exact he
    · exact hes before hb

/-- Inert events leave a history as `Balanced` as it was. -/
theorem balanced_append_of_inert (h : ∀ e ∈ es', e.IsInert id) :
    Balanced id (es ++ es') ↔ Balanced id es := by
  induction es' using List.reverseRecOn with
  | nil => rw [List.append_nil]
  | append_singleton es' e ih =>
    rw [← List.append_assoc, balanced_concat, ih fun e' he' => h e' (by simp [he'])]
    refine and_iff_left_of_imp fun hbalanced => ?_
    rw [List.append_assoc, completions_append, issues_append, completions_of_inert h,
      issues_of_inert h, List.append_nil, List.append_nil]
    exact hbalanced _ List.prefix_rfl

/-- What the history tells of the occupant of a slot. -/
structure Occupancy (es : List Event) (id : WriteId) (s : Slot) : Prop where
  claimed : ∃ older, es = older ++ .acquired id s.generation :: since id es
  unreleased : ∀ e ∈ since id es, e.releases id = false
  contains_iff : ∀ op, s.completed.contains op = true ↔ op ∈ completions id (since id es)
  size_eq : s.completed.size = (completions id (since id es)).length
  pending_eq : s.pendingIo + s.completed.size =
    (issues id (since id es)).length + uncounted id (since id es)
  balanced_iff : Balanced id (since id es) ↔ uncounted id (since id es) = 0
  issues_prefix : issues id (since id es) <+: Operation.all

namespace Occupancy

variable {s s' : Slot}

/-- What happened `since` the claim of an occupant is part of the history. -/
theorem since_subset (h : Occupancy es id s) : since id es ⊆ es := by
  obtain ⟨older, hold⟩ := h.claimed
  intro e he
  rw [hold]
  exact List.mem_append_right _ (List.mem_cons_of_mem _ he)

/-- A claim begins the history of an occupant: the slot is `Slot.occupy` of what it was, and nothing
has happened since. -/
theorem claim (es : List Event) (id : WriteId) (s : Slot) :
    Occupancy (es ++ [.acquired id s.occupy.generation]) id s.occupy := by
  refine ⟨⟨es, ?_⟩, ?_, ?_, ?_, ?_, ?_, ?_⟩
  · rw [since_acquired]
  · rw [since_acquired]
    exact nofun
  · rw [since_acquired]
    simp [Slot.occupy, completions]
  · rw [since_acquired]
    exact OpSet.size_empty
  · rw [since_acquired]
    simp [Slot.occupy, issues, uncounted]
  · rw [since_acquired]
    simp [Balanced, List.prefix_nil, uncounted, completions, issues]
  · rw [since_acquired]
    exact List.nil_prefix

/-- More events of the same occupancy leave its claim where it is, in front of `since`. -/
private theorem claimed_append (h : Occupancy es id s)
    (hsince : since id (es ++ es') = since id es ++ es') (hgen : s'.generation = s.generation) :
    ∃ older, es ++ es' = older ++ .acquired id s'.generation :: since id (es ++ es') := by
  obtain ⟨older, hold⟩ := h.claimed
  refine ⟨older, ?_⟩
  rw [hsince, hgen, ← List.cons_append, ← List.append_assoc, ← hold]

/-- More events of which none `releases` the slot leave it unreleased. -/
private theorem unreleased_append (h : Occupancy es id s)
    (hsince : since id (es ++ es') = since id es ++ es')
    (hreleases : ∀ e ∈ es', e.releases id = false) :
    ∀ e ∈ since id (es ++ es'), e.releases id = false := by
  rw [hsince]
  intro e he
  rcases List.mem_append.mp he with he | he
  · exact h.unreleased e he
  · exact hreleases e he

/-- Inert events (`IsInert`) change nothing for the occupant. -/
theorem inert (h : Occupancy es id s) (hinert : ∀ e ∈ es', e.IsInert id)
    (hgen : s'.generation = s.generation) (hcompleted : s'.completed = s.completed)
    (hpending : s'.pendingIo = s.pendingIo) : Occupancy (es ++ es') id s' := by
  have hsince : since id (es ++ es') = since id es ++ es' :=
    since_append fun e he => (hinert e he).acquires
  have hissues : issues id (since id (es ++ es')) = issues id (since id es) :=
    issues_since_of_inert hinert
  have hcompletions : completions id (since id (es ++ es')) = completions id (since id es) := by
    rw [hsince, completions_append, completions_of_inert hinert, List.append_nil]
  have huncounted : uncounted id (since id (es ++ es')) = uncounted id (since id es) := by
    rw [hsince, uncounted_append, uncounted_of_inert hinert, Nat.add_zero]
  -- None of the counts since the claim changes, so the parts are rewritten one by one.
  refine ⟨h.claimed_append hsince hgen,
    h.unreleased_append hsince fun e he => (hinert e he).releases, ?_, ?_, ?_, ?_, ?_⟩
  · rw [hcompletions, hcompleted]
    exact h.contains_iff
  · rw [hcompletions, hcompleted]
    exact h.size_eq
  · rw [hissues, huncounted, hcompleted, hpending]
    exact h.pending_eq
  · rw [huncounted, ← h.balanced_iff, hsince, balanced_append_of_inert hinert]
  · rw [hissues]
    exact h.issues_prefix

/-- An operation that is put on record is the next of the occupant's `issues`, and one more of its
operations is outstanding. -/
theorem issue {op : Operation} {left : List Operation} (st : Stage) (g : Generation)
    (h : Occupancy es id s) (hop : issues id (since id es) ++ op :: left = Operation.all) :
    Occupancy (es ++ [.issued st ⟨id, op, g⟩]) id s.issue := by
  have hsince : since id (es ++ [.issued st ⟨id, op, g⟩]) =
      since id es ++ [.issued st ⟨id, op, g⟩] := since_append (by simp [Event.acquires])
  have hissues : issues id (since id (es ++ [.issued st ⟨id, op, g⟩])) =
      issues id (since id es) ++ [op] := by
    rw [hsince, issues_append]
    simp [issues, Event.issues?]
  have hcompletions : completions id (since id (es ++ [.issued st ⟨id, op, g⟩])) =
      completions id (since id es) := by
    rw [hsince, completions_append]
    simp [completions, Event.completes?]
  have huncounted : uncounted id (since id (es ++ [.issued st ⟨id, op, g⟩])) =
      uncounted id (since id es) := by
    rw [hsince, uncounted_append]
    simp [uncounted, Event.isUncounted]
  refine ⟨h.claimed_append hsince rfl, h.unreleased_append hsince (by simp [Event.releases]),
    ?_, ?_, ?_, ?_, ?_⟩
  · rw [hcompletions]
    exact h.contains_iff
  · rw [hcompletions]
    exact h.size_eq
  · have := h.pending_eq
    rw [hissues, huncounted, List.length_append, List.length_singleton]
    simp only [Slot.issue]
    omega
  · -- One more issue cannot make the reports too many.
    rw [huncounted, ← h.balanced_iff, hsince, balanced_concat]
    refine and_iff_left_of_imp fun hbalanced => ?_
    have := hbalanced _ List.prefix_rfl
    rw [← hsince, hcompletions, hissues, List.length_append]
    omega
  · rw [hissues]
    refine ⟨left, ?_⟩
    rw [List.append_assoc, List.singleton_append, hop]

/-- A report that is noted adds to `completed` of the occupant. It is counted if an operation was
outstanding. -/
theorem report {op : Operation} {g : Option Generation} (h : Occupancy es id s)
    (hnew : s.completed.contains op = false) (hkeeps : (s.complete op).isDrained = false) :
    Occupancy (es ++ [.reported id op g (.ofSlot s op)]) id (s.complete op) := by
  have hsince : since id (es ++ [.reported id op g (.ofSlot s op)]) =
      since id es ++ [.reported id op g (.ofSlot s op)] := since_append (by simp [Event.acquires])
  have hissues : issues id (since id (es ++ [.reported id op g (.ofSlot s op)])) =
      issues id (since id es) := by
    rw [hsince, issues_append]
    simp [issues, Event.issues?]
  have hcompletions : completions id (since id (es ++ [.reported id op g (.ofSlot s op)])) =
      completions id (since id es) ++ [op] := by
    rw [hsince, completions_append]
    simp [completions, Event.completes?, Table.Verdict.ofSlot, Table.Verdict.isAccepted]
  have huncounted : uncounted id (since id (es ++ [.reported id op g (.ofSlot s op)])) =
      uncounted id (since id es) + if s.pendingIo = 0 then 1 else 0 := by
    rw [hsince, uncounted_append]
    simp [uncounted, Event.isUncounted, Table.Verdict.ofSlot, List.countP_cons]
  have hsize := OpSet.size_insert hnew
  have hpending := h.pending_eq
  have hsizes := h.size_eq
  refine ⟨h.claimed_append hsince rfl, h.unreleased_append hsince ?_, ?_, ?_, ?_, ?_, ?_⟩
  · simp [Event.releases, Table.Verdict.ofSlot, hkeeps]
  · intro o
    rw [hcompletions, List.mem_append, List.mem_singleton, ← h.contains_iff]
    simp [Slot.complete]
  · rw [hcompletions, List.length_append, List.length_singleton, ← hsizes]
    exact hsize
  · rw [hissues, huncounted]
    simp only [Slot.complete, hsize]
    split <;> omega
  · -- One more report makes them too many exactly if nothing was outstanding.
    rw [huncounted, hsince, balanced_concat, ← hsince, hcompletions, hissues, h.balanced_iff,
      List.length_append, List.length_singleton]
    split <;> omega
  · rw [hissues]
    exact h.issues_prefix

/-- No more operations are outstanding than are on record: `pendingIo` goes up with the issues
only. -/
theorem pendingIo_le (h : Occupancy es id s) :
    s.pendingIo ≤ (issues id (since id es)).length := by
  have hpending := h.pending_eq
  have hsize := h.size_eq
  have hle := uncounted_le_completions id (since id es)
  omega

/-- With an operation on record that is not in `completed`, `pendingIo` is positive, if only
operations on record are noted as complete. -/
theorem pendingIo_pos {op : Operation} (h : Occupancy es id s)
    (hissued : op ∈ issues id (since id es)) (hnew : s.completed.contains op = false)
    (hcompleted : ∀ o, s.completed.contains o = true → o ∈ issues id (since id es)) :
    0 < s.pendingIo := by
  have hsub : op :: s.completed.toList ⊆ issues id (since id es) := by
    intro o ho
    rcases List.mem_cons.mp ho with rfl | ho
    · exact hissued
    · exact hcompleted o (by simpa [OpSet.toList, Operation.mem_all] using ho)
  have hcons : (op :: s.completed.toList).Nodup := by
    rw [List.nodup_cons]
    refine ⟨by simp [OpSet.toList, hnew], List.Nodup.sublist List.filter_sublist (by decide)⟩
  -- So the issues are more than what is noted as complete.
  have hle := (List.Nodup.subperm hcons hsub).length_le
  have hpending := h.pending_eq
  rw [OpSet.size] at hpending
  rw [List.length_cons] at hle
  omega

end Occupancy

end WriteAhead
