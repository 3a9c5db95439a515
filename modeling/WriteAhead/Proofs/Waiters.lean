import Mathlib.Data.List.Nodup
import WriteAhead.Proofs.List
import WriteAhead.Waiters

/-!
# Who waits at a monitor

A caller waits at a monitor from the moment it falls asleep until it looks again, whether it has
been woken in between or not. `Waiters.all` lists those callers, and `Waiters.Matches` says that
they are exactly the ones that some relation names, each of them once.

## Key results

- `Matches.sleep`, `Matches.resume`: a caller that falls asleep is added, one that looks again goes
- `all_notifyOne`, `all_notifyAll`: a notification sends nobody away
- `Matches.wokenWant`: a woken caller still wants what it slept for
-/

namespace WriteAhead.Waiters

variable {κ ω : Type}

/-- Every waiting caller with what it wants, those asleep first. -/
def all (w : Waiters κ ω) : List (κ × ω) := w.asleep ++ w.woken

/-! ## Waiting callers under each operation -/

/-- A caller that falls asleep with `sleep` is one more to wait. -/
theorem all_sleep (w : Waiters κ ω) (k : κ) (want : ω) :
    (w.sleep k want).all.Perm ((k, want) :: w.all) := by
  simp only [all, sleep, List.append_assoc, List.singleton_append]
  exact List.perm_middle

/-- A caller that `notifyOne` wakes still waits: it moves from `asleep` to `woken`. -/
theorem all_notifyOne (w : Waiters κ ω) (p : ω → Bool) : (w.notifyOne p).all.Perm w.all := by
  unfold notifyOne
  split
  · -- The caller that is found is taken out in front and put back behind.
    rename_i c hc
    have hasleep := (List.perm_cons_eraseP hc).append_right w.woken
    refine List.Perm.trans ?_ hasleep.symm
    simp only [all, ← List.append_assoc]
    exact List.perm_append_singleton _ _
  · exact List.Perm.refl _

/-- Moving the sleepers of a kind to the `woken` ones sends nobody away. -/
private theorem perm_filter_woken (asleep woken : List (κ × ω)) (p : κ × ω → Bool) :
    (asleep.filter (!p ·) ++ (woken ++ asleep.filter p)).Perm (asleep ++ woken) := by
  have hsplit := List.filter_append_perm (fun c => !p c) asleep
  simp only [Bool.not_not] at hsplit
  have hcomm : (woken ++ asleep.filter p).Perm (asleep.filter p ++ woken) := List.perm_append_comm
  refine (hcomm.append_left _).trans ?_
  rw [← List.append_assoc]
  exact hsplit.append_right _

/-- The callers that `notifyAll` wakes still wait. -/
theorem all_notifyAll (w : Waiters κ ω) (p : ω → Bool) : (w.notifyAll p).all.Perm w.all :=
  perm_filter_woken w.asleep w.woken (p ·.2)

/-- Nobody falls asleep by `notifyOne`. -/
theorem asleep_notifyOne_subset (w : Waiters κ ω) (p : ω → Bool) :
    (w.notifyOne p).asleep ⊆ w.asleep := by
  unfold notifyOne
  split
  · exact List.eraseP_subset
  · exact List.Subset.refl _

/-- Nobody falls asleep by `notifyAll`. -/
theorem asleep_notifyAll_subset (w : Waiters κ ω) (p : ω → Bool) :
    (w.notifyAll p).asleep ⊆ w.asleep := List.filter_subset_self _

/-- Nobody whose want is `p` sleeps through `notifyAll p`. -/
theorem not_of_mem_asleep_notifyAll {w : Waiters κ ω} {p : ω → Bool} {c : κ × ω}
    (h : c ∈ (w.notifyAll p).asleep) : p c.2 = false := by
  simpa using (List.mem_filter.mp h).2

variable [DecidableEq κ]

/-- What a woken caller wants can be looked up with `wokenWant?`. -/
theorem wokenWant?_isSome {w : Waiters κ ω} {k : κ} {want : ω} (h : (k, want) ∈ w.woken) :
    (w.wokenWant? k).isSome := by
  rw [wokenWant?, Option.isSome_map, List.find?_isSome]
  exact ⟨_, h, by simp⟩

/-- A caller that wakes by itself, with `stir`, still waits. -/
theorem all_stir (w : Waiters κ ω) (k : κ) : (w.stir k).all.Perm w.all := by
  have hstir : (w.stir k).asleep = w.asleep.filter fun c => !decide (c.1 = k) := by simp [stir]
  rw [all, hstir]
  exact perm_filter_woken w.asleep w.woken fun c => decide (c.1 = k)

/-- Nobody falls asleep by `stir`. -/
theorem asleep_stir_subset (w : Waiters κ ω) (k : κ) : (w.stir k).asleep ⊆ w.asleep :=
  List.filter_subset_self _

/-- A caller that looks again, with `resume`, is taken from the `woken` ones with its want. -/
theorem woken_perm_resume {w : Waiters κ ω} {k : κ} {want : ω} (h : w.wokenWant? k = some want) :
    w.woken.Perm ((k, want) :: (w.resume k).woken) := by
  obtain ⟨⟨k', want'⟩, hc, rfl⟩ := Option.map_eq_some_iff.mp h
  obtain rfl : k' = k := by simpa using List.find?_some hc
  exact List.perm_cons_eraseP hc

/-- A caller that looks again, with `resume`, waits no longer, and everybody else does. -/
theorem all_resume {w : Waiters κ ω} {k : κ} {want : ω} (h : w.wokenWant? k = some want) :
    w.all.Perm ((k, want) :: (w.resume k).all) :=
  ((woken_perm_resume h).append_left _).trans List.perm_middle

/-- The waiting callers as one of them finds them when it looks for what it wants: a first look
leaves them as they are, and a later one is that of a woken caller, which waits no longer. -/
inductive Look (w : Waiters κ ω) (k : κ) (want : ω) : Bool → Waiters κ ω → Prop where
  | first : Look w k want true w
  | again (hw : w.wokenWant? k = some want) : Look w k want false (w.resume k)

/-- Nobody begins to wait by a `Look`. -/
theorem Look.all_subset {w w' : Waiters κ ω} {k : κ} {want : ω} {first : Bool}
    (h : w.Look k want first w') : w'.all ⊆ w.all := by
  cases h with
  | first => exact List.Subset.refl _
  | again hw => exact fun c hc => (all_resume hw).mem_iff.mpr (List.mem_cons_of_mem _ hc)

/-! ## Waiting callers and a relation that names them -/

/-- Exactly the callers that `wants` names are waiting, each of them once. -/
structure Matches (w : Waiters κ ω) (wants : κ → ω → Prop) : Prop where
  nodup : (w.all.map Prod.fst).Nodup
  mem_iff : ∀ k want, (k, want) ∈ w.all ↔ wants k want

namespace Matches

variable {w w' : Waiters κ ω} {wants wants' : κ → ω → Prop} {k : κ} {want : ω}

omit [DecidableEq κ] in
/-- Only who waits matters to `Matches`, not the order nor who is asleep. -/
theorem perm (h : w.Matches wants) (hp : w'.all.Perm w.all) : w'.Matches wants :=
  ⟨(hp.map _).nodup_iff.mpr h.nodup, fun k want => hp.mem_iff.trans (h.mem_iff k want)⟩

omit [DecidableEq κ] in
/-- Two relations that name the same callers are matched by the same waiters (`Matches`). -/
theorem congr (h : w.Matches wants) (hw : ∀ k want, wants k want ↔ wants' k want) :
    w.Matches wants' :=
  ⟨h.nodup, fun k want => (h.mem_iff k want).trans (hw k want)⟩

omit [DecidableEq κ] in
/-- A caller whom `wants` did not name falls asleep, and is named with its want from then on. -/
theorem sleep (h : w.Matches wants) (hk : ∀ want', ¬ wants k want') :
    (w.sleep k want).Matches fun k' want' => wants k' want' ∨ (k' = k ∧ want' = want) := by
  have hp := w.all_sleep k want
  constructor
  · rw [(hp.map _).nodup_iff, List.map_cons, List.nodup_cons]
    refine ⟨fun hmem => ?_, h.nodup⟩
    obtain ⟨c, hc, rfl⟩ := List.mem_map.mp hmem
    exact hk c.2 ((h.mem_iff _ _).mp hc)
  · -- The list holds the new caller and whoever it held before.
    intro k' want'
    rw [hp.mem_iff, List.mem_cons, h.mem_iff, Prod.mk.injEq]
    exact or_comm

/-- What `wokenWant?` finds is what the relation says that the caller wants. -/
theorem wokenWant (h : w.Matches wants) (hw : w.wokenWant? k = some want) : wants k want :=
  (h.mem_iff _ _).mp ((all_resume hw).mem_iff.mpr List.mem_cons_self)

/-- A caller that looks again (`resume`) waits no longer: the relation without it is matched. -/
theorem resume (h : w.Matches wants) (hw : w.wokenWant? k = some want) :
    (w.resume k).Matches fun k' want' => k' ≠ k ∧ wants k' want' := by
  have hp := all_resume hw
  have hnodup := (hp.map Prod.fst).nodup_iff.mp h.nodup
  rw [List.map_cons, List.nodup_cons] at hnodup
  refine ⟨hnodup.2, fun k' want' => ⟨fun hmem => ⟨?_, ?_⟩, fun ⟨hne, hwants⟩ => ?_⟩⟩
  · -- It was in the list once, so it is not among those that are left.
    rintro rfl
    exact hnodup.1 (List.mem_map.mpr ⟨_, hmem, rfl⟩)
  · exact (h.mem_iff _ _).mp (hp.mem_iff.mpr (List.mem_cons_of_mem _ hmem))
  · have := hp.mem_iff.mp ((h.mem_iff _ _).mpr hwants)
    rw [List.mem_cons, Prod.mk.injEq] at this
    exact this.resolve_left fun heq => hne heq.1

/-- A caller that looks (`Look`) does not wait meanwhile, whether it looks for the first time or was
woken. -/
theorem look {first : Bool} (h : w.Matches wants) (hl : w.Look k want first w')
    (hfirst : first = true → ∀ want', ¬ wants k want') :
    w'.Matches fun k' want' => k' ≠ k ∧ wants k' want' := by
  cases hl with
  | first =>
    refine h.congr fun k' want' => ⟨fun hwants => ⟨?_, hwants⟩, fun hwants => hwants.2⟩
    rintro rfl
    exact hfirst rfl want' hwants
  | again hw => exact h.resume hw

end Matches

end WriteAhead.Waiters
