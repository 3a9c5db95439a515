import WriteAhead.Proofs.Table.Reports
import WriteAhead.Proofs.Table.Vacancies

/-!
# Who a join wakes, and what it finds

A report with which a join comes to hold wakes the caller that waits for it. What that caller is
answered is decided when it looks again, from the slot as it is then. As long as the occupant has
not left its slot, the join still holds. But the report that wakes the caller may release the slot
in the same breath, if the checkpoint stage was done before; then the caller finds a free slot and
sleeps again.

## Key results

- `step_woken`: who is woken stays so until it looks
- `Effected.join_of_join`: what completed for an occupant stays noted until it leaves
- `Run.heeds`: the caller that a join wakes is answered exactly if the join holds when it looks
- `join_missed`: a caller that is woken by a join and sleeps again
-/

namespace WriteAhead

/-! ## Woken callers -/

namespace Waiters

variable {κ ω : Type} {w : Waiters κ ω} {c : κ × ω}

/-- A `notifyOne` sends nobody back to sleep. -/
theorem mem_woken_notifyOne (p : ω → Bool) (h : c ∈ w.woken) : c ∈ (w.notifyOne p).woken := by
  unfold notifyOne
  split
  · exact List.mem_append_left _ h
  · exact h

theorem mem_woken_notifyAll (p : ω → Bool) (h : c ∈ w.woken) : c ∈ (w.notifyAll p).woken :=
  List.mem_append_left _ h

/-- The only caller that `notifyOne` can be for is woken by it, if it is not awake already. -/
theorem mem_woken_of_notifyOne {p : ω → Bool} (h : c ∈ w.all) (hp : p c.2 = true)
    (halone : ∀ c' ∈ w.asleep, p c'.2 = true → c' = c) : c ∈ (w.notifyOne p).woken := by
  rcases List.mem_append.mp h with hasleep | hwoken
  · unfold notifyOne
    cases hfind : w.asleep.find? (p ·.2) with
    | none =>
      have hnone := List.find?_eq_none.mp hfind c hasleep
      exact absurd hp hnone
    | some c' =>
      have hp' : p c'.2 = true := List.find?_some (p := fun c : κ × ω => p c.2) hfind
      obtain rfl := halone c' (List.mem_of_find?_eq_some hfind) hp'
      exact List.mem_append_right _ List.mem_cons_self
  · exact mem_woken_notifyOne p hwoken

variable [DecidableEq κ]

/-- Who waits once and is woken is found by `wokenWant?`. -/
theorem wokenWant?_eq_some {k : κ} {want : ω} (hnodup : (w.all.map Prod.fst).Nodup)
    (h : (k, want) ∈ w.woken) : w.wokenWant? k = some want := by
  have hnodup : (w.woken.map Prod.fst).Nodup :=
    ((List.sublist_append_right w.asleep w.woken).map Prod.fst).nodup hnodup
  obtain ⟨c, hc⟩ := Option.isSome_iff_exists.mp
    (List.find?_isSome (p := fun c : κ × ω => decide (c.1 = k)).mpr ⟨_, h, by simp⟩)
  have hk : c.1 = k := by simpa using List.find?_some hc
  have heq : c = (k, want) := List.inj_on_of_nodup_map hnodup (List.mem_of_find?_eq_some hc) h hk
  rw [wokenWant?, hc, heq]
  rfl

/-- Who looks again (`resume`) leaves the others awake. -/
theorem mem_woken_resume {k : κ} (h : c ∈ w.woken) (hne : c.1 ≠ k) : c ∈ (w.resume k).woken :=
  (List.mem_eraseP_of_neg (by simpa using hne)).mpr h

end Waiters

namespace Table

namespace Monitor

variable {κ : Type} [DecidableEq κ] {m m' : Monitor κ} {a : Action κ} {y : Yield} {k : κ}
  {want : Want} {id : WriteId}

omit [DecidableEq κ] in
/-- Who is awake stays awake when a release is told (`notifyRelease`). -/
theorem mem_woken_notifyRelease {c : κ × Want} (released : Bool) (h : c ∈ m.waiters.woken) :
    c ∈ (m.notifyRelease id released).waiters.woken := by
  unfold notifyRelease
  split
  · dsimp only
    split
    · exact Waiters.mem_woken_notifyAll _ (Waiters.mem_woken_notifyAll _ h)
    · exact Waiters.mem_woken_notifyAll _ h
  · exact h

omit [DecidableEq κ] in
/-- A `recordCompletion` sends nobody back to sleep: it notifies for a join and for a release. -/
theorem mem_woken_recordCompletion {op : Operation} {g : Option Generation} {v : Verdict}
    {c : κ × Want} (h : m.recordCompletion id op g = (m', v)) (hwoken : c ∈ m.waiters.woken) :
    c ∈ m'.waiters.woken := by
  unfold Monitor.recordCompletion at h
  split at h
  · obtain ⟨rfl, -⟩ := Prod.mk.inj h
    refine mem_woken_notifyRelease _ ?_
    dsimp only
    split
    · exact Waiters.mem_woken_notifyOne _ hwoken
    · exact hwoken
  · obtain ⟨rfl, -⟩ := Prod.mk.inj h
    exact hwoken

omit [DecidableEq κ] in
/-- A `markCheckpointDone` sends nobody back to sleep. -/
theorem mem_woken_markCheckpointDone {released : Bool} {c : κ × Want}
    (h : m.markCheckpointDone id = .ok (m', released)) (hwoken : c ∈ m.waiters.woken) :
    c ∈ m'.waiters.woken := by
  unfold Monitor.markCheckpointDone at h
  cases hok : m.table.markCheckpointDone id with
  | error f => rw [hok] at h; exact nomatch h
  | ok p =>
    rw [hok] at h
    obtain ⟨rfl, -⟩ := Prod.mk.inj (Except.ok.inj h)
    exact mem_woken_notifyRelease _ hwoken

/-- The look of a caller: its first one, or another after it was woken. -/
inductive Looked (m : Monitor κ) : Action κ → κ → Want → Bool → Prop where
  | enter {k : κ} {want : Want} (hfree : m.isFree k = true) : Looked m (.enter k want) k want true
  | recheck {k : κ} {want : Want} (hwoken : m.waiters.wokenWant? k = some want) :
      Looked m (.recheck k) k want false

/-- A `step` is the look of a caller or wakes some of them, and sends nobody away. -/
theorem looked_or_wakes (h : m.step a = some (m', y)) :
    (∃ k want first r, m.Looked a k want first ∧ m.Visit k want first m' r ∧ y = .ofReply? r) ∨
      (m'.waiters.all.Perm m.waiters.all ∧ ∀ c ∈ m.waiters.woken, c ∈ m'.waiters.woken) := by
  cases a with
  | enter k want =>
    obtain ⟨hfree, heq⟩ := Option.ite_none_right_eq_some.mp h
    obtain ⟨rfl, rfl⟩ := Prod.mk.inj (Option.some.inj heq)
    exact .inl ⟨k, want, true, _, .enter hfree, visit_enter rfl, rfl⟩
  | recheck k =>
    obtain ⟨⟨m₁, r⟩, hrecheck, heq⟩ := Option.map_eq_some_iff.mp h
    obtain ⟨rfl, rfl⟩ := Prod.mk.inj heq
    obtain ⟨want, hwoken, hvisit⟩ := visit_recheck hrecheck
    exact .inl ⟨k, want, false, r, .recheck hwoken, hvisit, rfl⟩
  | stir k =>
    obtain ⟨-, heq⟩ := Option.ite_none_right_eq_some.mp h
    obtain ⟨rfl, -⟩ := Prod.mk.inj (Option.some.inj heq)
    exact .inr ⟨Waiters.all_stir _ k, fun c hc => List.mem_append_left _ hc⟩
  | issue id =>
    simp only [step] at h
    split at h <;> obtain ⟨rfl, -⟩ := Prod.mk.inj (Option.some.inj h)
    · rename_i hissue
      rw [recordIssue_waiters hissue]
      exact .inr ⟨.refl _, fun c hc => hc⟩
    · exact .inr ⟨.refl _, fun c hc => hc⟩
  | complete id op generation =>
    obtain ⟨rfl, -⟩ := Prod.mk.inj (Option.some.inj h)
    exact .inr ⟨recordCompletion_all rfl, fun c hc => mem_woken_recordCompletion rfl hc⟩
  | mark id =>
    simp only [step] at h
    split at h <;> obtain ⟨rfl, -⟩ := Prod.mk.inj (Option.some.inj h)
    · rename_i hmark
      exact .inr ⟨markCheckpointDone_all hmark, fun c hc => mem_woken_markCheckpointDone hmark hc⟩
    · exact .inr ⟨.refl _, fun c hc => hc⟩
  | shutDown =>
    obtain ⟨rfl, -⟩ := Prod.mk.inj (Option.some.inj h)
    exact .inr ⟨shutDown_all m, fun c hc =>
      Waiters.mem_woken_notifyAll _ (Waiters.mem_woken_notifyAll _ hc)⟩

/-- Who is woken stays so until it looks again, by a `recheck`. -/
theorem step_woken (h : m.step a = some (m', y)) (ha : a ≠ .recheck k)
    (hwoken : (k, want) ∈ m.waiters.woken) : (k, want) ∈ m'.waiters.woken := by
  rcases looked_or_wakes h with ⟨k', want', first, r, hlooked, hvisit, -⟩ | ⟨-, hwakes⟩
  · obtain ⟨w, hlook, hwaiters⟩ := hvisit.waiters
    have hw : (k, want) ∈ w.woken := by
      cases hlook with
      | first => exact hwoken
      | again =>
        cases hlooked with
        | recheck => exact Waiters.mem_woken_resume hwoken fun heq => ha (heq ▸ rfl)
    rw [hwaiters]
    split <;> exact hw
  · exact hwakes _ hwoken

/-- No caller waits twice. -/
def WaitsOnce (m : Monitor κ) : Prop := (m.waiters.all.map Prod.fst).Nodup

/-- Who waits cannot call again, so every step keeps `WaitsOnce`. -/
theorem WaitsOnce.step (h : m.WaitsOnce) (hstep : m.step a = some (m', y)) : m'.WaitsOnce := by
  rcases looked_or_wakes hstep with ⟨k, want, first, r, hlooked, hvisit, -⟩ | ⟨hperm, -⟩
  · obtain ⟨w, hlook, hwaiters⟩ := hvisit.waiters
    -- A caller that looks is not among those who wait.
    have hw : (w.all.map Prod.fst).Nodup ∧ k ∉ w.all.map Prod.fst := by
      cases hlooked with
      | enter hfree =>
        cases hlook with
        | first =>
          refine ⟨h, fun hmem => ?_⟩
          obtain ⟨c, hc, rfl⟩ := List.mem_map.mp hmem
          rcases List.mem_append.mp hc with hc | hc <;> simp [isFree] at hfree
          · exact hfree.1 _ _ hc rfl
          · exact hfree.2 _ _ hc rfl
      | recheck hwoken =>
        cases hlook with
        | again =>
          have hnodup := ((Waiters.all_resume hwoken).map Prod.fst).nodup_iff.mp h
          rw [List.map_cons, List.nodup_cons] at hnodup
          exact ⟨hnodup.2, hnodup.1⟩
    rw [WaitsOnce, hwaiters]
    split
    · rw [((w.all_sleep k want).map Prod.fst).nodup_iff, List.map_cons, List.nodup_cons]
      exact ⟨hw.2, hw.1⟩
    · exact hw.1
  · exact (hperm.map Prod.fst).nodup_iff.mpr h

end Monitor

/-! ## What completed for an occupant -/

variable {t t' : Table} {e? : Option Effect} {id : WriteId} {s s' : Slot} {stage : Stage}

/-- What completed before an `insert` is noted after it, so a join that holds goes on to hold. -/
theorem containsAll_insert {c : OpSet} (op : Operation) (h : c.containsAll stage.join = true) :
    (c.insert op).containsAll stage.join = true := by
  rw [OpSet.containsAll_iff] at h ⊢
  intro o ho
  rw [OpSet.contains_insert, h o ho, Bool.true_or]

/-- A join holds for an occupant until it leaves: only an effect that `claims` begins with an empty
set again. -/
theorem Effected.join_of_join (h : Effected t e? t') (stage : Stage)
    (he : ∀ e, e? = some e → e.claims id = false) (hs' : t'.slot? id = some s')
    (huse' : s'.inUse = true) : ∃ s, t.slot? id = some s ∧ s.inUse = true ∧
      (s.completed.containsAll stage.join = true →
        s'.completed.containsAll stage.join = true) := by
  -- A change of another slot says nothing of this one.
  have hreplaced {i : WriteId} {u u' : Slot} (hrep : Replaces t t' i u u')
      (hself : i = id → u'.inUse = true → u.inUse = true ∧
        (u.completed.containsAll stage.join = true → u'.completed.containsAll stage.join = true)) :
      ∃ s, t.slot? id = some s ∧ s.inUse = true ∧
        (s.completed.containsAll stage.join = true →
          s'.completed.containsAll stage.join = true) := by
    by_cases hid : id = i
    · subst hid
      obtain rfl := Option.some.inj (hs'.symm.trans hrep.slot?_self)
      exact ⟨u, hrep.old, hself rfl huse'⟩
    · exact ⟨s', hrep.slot?_of_ne hid ▸ hs', huse', fun h => h⟩
  cases h with
  | nothing hslots =>
    rw [slot?, hslots] at hs'
    exact ⟨s', hs', huse', fun h => h⟩
  | @claimed _ i u hfree hrep =>
    refine hreplaced hrep fun hid _ => ?_
    have hclaims := he _ rfl
    simp [Effect.claims, hid] at hclaims
  | issued huse hrep => exact hreplaced hrep fun _ _ => ⟨huse, fun h => h⟩
  | @completed _ i u op huse hnew hrep =>
    refine hreplaced hrep fun _ hstays => ⟨huse, fun h => ?_⟩
    rw [Slot.settle_of_inUse hstays]
    exact containsAll_insert op h
  | @marked _ i u hrep =>
    refine hreplaced hrep fun _ hstays => ?_
    have hsettle := Slot.settle_of_inUse hstays
    rw [hsettle] at hstays ⊢
    exact ⟨hstays, fun h => h⟩

/-- There are the same slots (`slot?`) after a step as before. -/
theorem Effected.exists_slot (h : Effected t e? t') (hs : ∃ s, t.slot? id = some s) :
    ∃ s', t'.slot? id = some s' := by
  obtain ⟨s, hs⟩ := hs
  obtain ⟨hlt, -⟩ := Array.getElem?_eq_some_iff.mp hs
  exact ⟨_, Array.getElem?_eq_getElem (h.size_eq.symm ▸ hlt)⟩

namespace Monitor

variable {κ : Type} [DecidableEq κ] {m m' m₁ : Monitor κ} {a : Action κ} {y : Yield} {k : κ}
  {as bs : List (Action κ)} {es es' : List Effect} {capacity : Nat} {op : Operation}
  {generation : Option Generation} {v : Verdict}

/-! ## Runs -/

/-- The last step of a run, and the `effect?` that it leaves on record. -/
theorem Run.of_concat (h : Run capacity (as ++ [a]) m' es') : ∃ m es y,
    Run capacity as m es ∧ m.step a = some (m', y) ∧ es' = es ++ (m.effect? a y).toList := by
  generalize heq : as ++ [a] = l at h
  cases h with
  | start => simp at heq
  | @step as' m m' es a' y hrun hstep =>
    obtain ⟨rfl, hlast⟩ := List.append_inj' heq rfl
    obtain rfl := List.singleton_inj.mp hlast
    exact ⟨m, es, y, hrun, hstep, rfl⟩

/-- Nobody waits twice in a run (`WaitsOnce`). -/
theorem Run.waitsOnce (h : Run capacity as m es) : m.WaitsOnce := by
  induction h with
  | start => exact List.nodup_nil
  | step hrun hstep ih => exact ih.step hstep

/-- Nothing is noted as complete in a free slot, since the release has `reset` it. -/
theorem Run.completed_of_free (h : Run capacity as m es) (hs : m.table.slot? id = some s)
    (huse : s.inUse = false) : s.completed = .empty :=
  congrArg Slot.completed (h.vacant id s hs huse)

omit [DecidableEq κ] in
/-- The report with which a join comes to hold wakes the only caller that waits for one, whatever
`notifyOne` finds first. -/
theorem woken_of_joined (honce : m.WaitsOnce) (hwaits : (k, .join id stage) ∈ m.waiters.all)
    (halone : ∀ c ∈ m.waiters.all, c.2.isJoin id = true → c.1 = k)
    (h : m.recordCompletion id op generation = (m₁, v)) (hjoined : v.outcome op = .joined stage) :
    (k, .join id stage) ∈ m₁.waiters.woken := by
  -- The condition variable wakes one waiter of the slot, and `k` is the only one.
  have halone (c : κ × Want) (hc : c ∈ m.waiters.asleep) (hjoin : c.2.isJoin id = true) :
      c = (k, .join id stage) := by
    have hc := List.mem_append_left m.waiters.woken hc
    exact List.inj_on_of_nodup_map honce hc hwaits (halone c hc hjoin)
  unfold Monitor.recordCompletion at h
  split at h
  · rename_i t joined unissued released heq
    obtain ⟨rfl, rfl⟩ := Prod.mk.inj h
    obtain rfl : joined = true := by
      by_contra hne
      simp [Verdict.outcome, hne] at hjoined
    refine mem_woken_notifyRelease _ ?_
    exact Waiters.mem_woken_of_notifyOne hwaits (by simp [Want.isJoin]) halone
  · rename_i t v' hnot heq
    obtain ⟨rfl, rfl⟩ := Prod.mk.inj h
    cases v' with
    | accepted joined unissued released => exact absurd rfl (hnot joined unissued released)
    | unknown | stale | duplicate => cases hjoined

/-- What becomes of a caller that was woken by a join when its slot had been claimed so many
times. -/
structure Heeds (k : κ) (id : WriteId) (stage : Stage) (claimed : Nat) (m : Monitor κ)
    (es : List Effect) : Prop where
  /-- The caller is awake, and looks again for the join. -/
  woken : m.waiters.wokenWant? k = some (.join id stage)
  /-- It is answered exactly if the join holds for the slot as it is when the caller looks. -/
  looks : ∃ s m' y, m.table.slot? id = some s ∧ m.step (.recheck k) = some (m', y) ∧
    (y = .reply .joined ↔ s.completed.containsAll stage.join = true)
  /-- So it is if the occupant for which the join came to hold is still there. -/
  stays : ∀ s, m.table.slot? id = some s → s.inUse = true → claims id es = claimed →
    ∃ m', m.step (.recheck k) = some (m', .reply .joined)
  /-- If the slot is free the caller sleeps again. -/
  misses : ∀ s, m.table.slot? id = some s → s.inUse = false → m.table.isShutDown = false →
    ∃ m', m.step (.recheck k) = some (m', .nothing) ∧ (k, .join id stage) ∈ m'.waiters.asleep

/-- A caller was woken by a join, and the join holds while its occupant is there. -/
structure Roused (k : κ) (id : WriteId) (stage : Stage) (claimed : Nat) (m : Monitor κ)
    (es : List Effect) : Prop where
  woken : (k, .join id stage) ∈ m.waiters.woken
  claimed_le : claimed ≤ claims id es
  slot : ∃ s, m.table.slot? id = some s
  holds : ∀ s, m.table.slot? id = some s → s.inUse = true → claims id es = claimed →
    s.completed.containsAll stage.join = true

omit [DecidableEq κ] in
/-- A report that is told of a join leaves the only caller that waits for one `Roused`. -/
theorem roused_of_joined (honce : m.WaitsOnce) (hwaits : (k, .join id stage) ∈ m.waiters.all)
    (halone : ∀ c ∈ m.waiters.all, c.2.isJoin id = true → c.1 = k)
    (h : m.recordCompletion id op generation = (m', v)) (hjoined : v.outcome op = .joined stage) :
    Roused k id stage (claims id es) m' (es ++ es') := by
  -- A report that was refused is told of no join.
  rcases recordCompletion_cases (recordCompletion_table h) with
    ⟨hrefused, -⟩ | ⟨s, haccepts, -, rfl, hrep⟩
  · cases v with
    | accepted => cases hrefused
    | unknown | stale | duplicate => cases hjoined
  · -- It is a report of the stage, and the last one that was missing.
    have hjoin : (s.completed.insert op).containsAll stage.join = true := by
      simp only [Verdict.ofSlot, Verdict.outcome] at hjoined
      split at hjoined
      · rename_i hfull
        obtain rfl := Outcome.joined.inj hjoined
        exact hfull
      · cases hjoined
    refine ⟨woken_of_joined honce hwaits halone h hjoined, claims_le .., ⟨_, hrep.slot?_self⟩,
      fun s' hs' huse _ => ?_⟩
    obtain rfl := Option.some.inj (hs'.symm.trans hrep.slot?_self)
    rw [Slot.settle_of_inUse huse]
    exact hjoin

namespace Roused

variable {claimed : Nat}

/-- The caller stays `Roused` until it looks. -/
theorem step (h : Roused k id stage claimed m es) (hstep : m.step a = some (m', y))
    (ha : a ≠ .recheck k) : Roused k id stage claimed m' (es ++ (m.effect? a y).toList) := by
  have heffected := effected_of_step hstep
  have hle := claims_le id es (m.effect? a y).toList
  refine ⟨step_woken hstep ha h.woken, h.claimed_le.trans hle, heffected.exists_slot h.slot,
    fun s' hs' huse' hclaims => ?_⟩
  have hclaimed := h.claimed_le
  -- Nobody has claimed the slot, so it has the occupant that it had.
  have hnone (e : Effect) (he : m.effect? a y = some e) : e.claims id = false := by
    rw [he, Option.toList_some, claims_concat] at hclaims
    cases hc : e.claims id with
    | false => rfl
    | true =>
      rw [hc, Bool.toNat_true] at hclaims
      omega
  obtain ⟨s, hs, huse, hjoin⟩ := heffected.join_of_join stage hnone hs' huse'
  exact hjoin (h.holds s hs huse (by omega))

/-- A caller that is `Roused` is answered when it looks, if the join holds then; otherwise it sleeps
again, or is told of a shutdown. -/
theorem outlook (h : Roused k id stage claimed m es) (honce : m.WaitsOnce)
    (hfree : ∀ s, m.table.slot? id = some s → s.inUse = false → s.completed = .empty) :
    Heeds k id stage claimed m es := by
  have hwoken := Waiters.wokenWant?_eq_some honce h.woken
  -- A recheck answers by the slot as it is at that moment.
  have hholds (s : Slot) (hs : m.table.slot? id = some s)
      (hjoin : s.completed.containsAll stage.join = true) :
      ∃ m', m.step (.recheck k) = some (m', .reply .joined) := by
    simp [Monitor.step, recheck, hwoken, attempt, hs, hjoin, Yield.ofReply?]
  have hlacks (s : Slot) (hs : m.table.slot? id = some s)
      (hjoin : s.completed.containsAll stage.join = false) :
      ∃ m' y, m.step (.recheck k) = some (m', y) ∧ y ≠ .reply .joined ∧
        (m.table.isShutDown = false → y = .nothing ∧ (k, .join id stage) ∈ m'.waiters.asleep) := by
    cases hdown : m.table.isShutDown <;>
      simp [Monitor.step, recheck, hwoken, attempt, hs, hjoin, hdown, Yield.ofReply?, Waiters.sleep]
  refine ⟨hwoken, ?_, fun s hs huse hclaims => ?_, fun s hs huse hdown => ?_⟩
  · obtain ⟨s, hs⟩ := h.slot
    cases hjoin : s.completed.containsAll stage.join with
    | true =>
      obtain ⟨m', hstep⟩ := hholds s hs hjoin
      exact ⟨s, m', _, hs, hstep, by simp [hjoin]⟩
    | false =>
      obtain ⟨m', y, hstep, hne, -⟩ := hlacks s hs hjoin
      exact ⟨s, m', y, hs, hstep, by simp [hjoin, hne]⟩
  · exact hholds s hs (h.holds s hs huse hclaims)
  · have hjoin : s.completed.containsAll stage.join = false := by
      rw [hfree s hs huse]
      exact containsAll_empty_join stage
    obtain ⟨m', y, hstep, -, hsleeps⟩ := hlacks s hs hjoin
    obtain ⟨rfl, hasleep⟩ := hsleeps hdown
    exact ⟨m', hstep, hasleep⟩

end Roused

/-- If a report is told of a join and a single caller waits for one at the slot, that caller is
awake until it looks, whatever happens meanwhile (`Heeds`). It is answered exactly if the join still
holds then, as it does until the occupant leaves. -/
theorem Run.heeds (hrun : Run capacity as m es) (hwaits : (k, .join id stage) ∈ m.waiters.all)
    (halone : ∀ c ∈ m.waiters.all, c.2.isJoin id = true → c.1 = k)
    (hstep : m.step (.complete id op generation) = some (m₁, .verdict v))
    (hjoined : v.outcome op = .joined stage)
    (hlater : Run capacity (as ++ .complete id op generation :: bs) m' es')
    (hbs : .recheck k ∉ bs) : Heeds k id stage (claims id es) m' es' := by
  suffices hroused : Roused k id stage (claims id es) m' es' from
    hroused.outlook hlater.waitsOnce fun s hs huse => hlater.completed_of_free hs huse
  -- From the report on, the caller stays roused with every step that is not its own look.
  induction bs using List.reverseRecOn generalizing m' es' with
  | nil =>
    obtain ⟨m₀, es₀, y, hrun₀, hstep₀, rfl⟩ := hlater.of_concat
    have htrace := hrun₀.trace?_eq.symm.trans hrun.trace?_eq
    obtain ⟨rfl, rfl⟩ := Prod.mk.inj (Option.some.inj htrace)
    obtain ⟨hm', hv⟩ := Prod.mk.inj (Option.some.inj hstep)
    obtain ⟨rfl, -⟩ := Prod.mk.inj (Option.some.inj (hstep₀.symm.trans hstep))
    have hreport : m₀.recordCompletion id op generation = (m', v) :=
      Prod.ext hm' (Yield.verdict.inj hv)
    exact roused_of_joined hrun.waitsOnce hwaits halone hreport hjoined
  | append_singleton bs b ih =>
    rw [← List.cons_append, ← List.append_assoc] at hlater
    obtain ⟨m₂, es₂, y, hrun₂, hstep₂, rfl⟩ := hlater.of_concat
    refine (ih hrun₂ fun hmem => hbs (List.mem_append_left _ hmem)).step hstep₂ ?_
    rintro rfl
    exact hbs (List.mem_append_right _ List.mem_cons_self)

/-- The checkpoint stage is done with an occupant of which two operations are outstanding. The first
report wakes the caller that waits for the commit, and does not release the slot. -/
theorem heeds_of_outstanding : ∃ (m m₁ m' : Monitor Nat) (es es' : List Effect) (v : Verdict),
    Run 1 [.enter 0 (.slot 0), .issue 0, .issue 0, .enter 1 (.join 0 .commit), .mark 0] m es ∧
      m.waiters.all = [(1, .join 0 .commit)] ∧
      m.step (.complete 0 .journalTxe (some 1)) = some (m₁, .verdict v) ∧
      v.outcome .journalTxe = .joined .commit ∧
      Run 1 [.enter 0 (.slot 0), .issue 0, .issue 0, .enter 1 (.join 0 .commit), .mark 0,
        .complete 0 .journalTxe (some 1), .enter 2 .drain, .enter 3 (.slot 0)] m' es' ∧
      Heeds 1 0 .commit (claims 0 es) m' es' ∧
      ∃ m'', m'.step (.recheck 1) = some (m'', .reply .joined) := by
  have hbefore : (trace? 1 [.enter 0 (.slot 0), .issue 0, .issue 0, .enter 1 (.join 0 .commit),
      .mark 0]).any (fun r => r.1.waiters.all = [(1, .join 0 .commit)] && claims 0 r.2 = 1 &&
        (r.1.step (.complete 0 .journalTxe (some 1))).any
          fun p => p.2 = .verdict (.accepted true false false)) = true := by decide +kernel
  have hafter : (trace? 1 [.enter 0 (.slot 0), .issue 0, .issue 0, .enter 1 (.join 0 .commit),
      .mark 0, .complete 0 .journalTxe (some 1), .enter 2 .drain, .enter 3 (.slot 0)]).any
        (fun r => (r.1.table.slot? 0).any (·.inUse) && claims 0 r.2 = 1) = true := by
    decide +kernel
  obtain ⟨⟨m, es⟩, htrace, h⟩ := (Option.any_eq_true _ _).mp hbefore
  obtain ⟨⟨m', es'⟩, htrace', h'⟩ := (Option.any_eq_true _ _).mp hafter
  simp only [Bool.and_eq_true, decide_eq_true_eq] at h h'
  obtain ⟨⟨hall, hclaims⟩, hreport⟩ := h
  obtain ⟨hslot, hclaims'⟩ := h'
  obtain ⟨⟨m₁, y⟩, hstep, hy⟩ := (Option.any_eq_true _ _).mp hreport
  obtain rfl := of_decide_eq_true hy
  obtain ⟨s, hs, huse⟩ := (Option.any_eq_true _ _).mp hslot
  have hheeds : Heeds 1 0 .commit (claims 0 es) m' es' :=
    (Run.of_trace? htrace).heeds (by rw [hall]; exact List.mem_cons_self)
      (by simp [hall]) hstep rfl (Run.of_trace? htrace') (by decide)
  exact ⟨m, m₁, m', es, es', _, Run.of_trace? htrace, hall, hstep, rfl, Run.of_trace? htrace',
    hheeds, hheeds.stays s hs huse (hclaims'.trans hclaims.symm)⟩

/-- The checkpoint stage is done with an occupant of which one operation is outstanding. Its report
is told of the join, wakes the only caller that waits for it, and releases the slot; the caller
finds it free and sleeps again. -/
theorem join_missed : ∃ (m m₁ m₂ : Monitor Nat) (es : List Effect) (v : Verdict),
    Run 1 [.enter 0 (.slot 0), .issue 0, .enter 1 (.join 0 .commit), .mark 0] m es ∧
      m.waiters.asleep = [(1, .join 0 .commit)] ∧ m.waiters.woken = [] ∧
      m.step (.complete 0 .journalTxe none) = some (m₁, .verdict v) ∧
      v.outcome .journalTxe = .joined .commit ∧
      m₁.step (.recheck 1) = some (m₂, .nothing) ∧
      m₂.waiters.asleep = [(1, .join 0 .commit)] := by
  have hend : (trace? 1 [.enter 0 (.slot 0), .issue 0, .enter 1 (.join 0 .commit), .mark 0]).any
      (fun r => r.1.waiters.asleep = [(1, .join 0 .commit)] && r.1.waiters.woken = [] &&
        (r.1.step (.complete 0 .journalTxe none)).any fun p =>
          p.2 = .verdict (.accepted true false true) && (p.1.step (.recheck 1)).any fun q =>
            q.2 = .nothing && q.1.waiters.asleep = [(1, .join 0 .commit)]) = true := by
    decide +kernel
  obtain ⟨⟨m, es⟩, htrace, h⟩ := (Option.any_eq_true _ _).mp hend
  obtain ⟨hbefore, hreport⟩ := Bool.and_eq_true_iff.mp h
  obtain ⟨hasleep, hwoken⟩ := Bool.and_eq_true_iff.mp hbefore
  obtain ⟨⟨m₁, y⟩, hstep, h⟩ := (Option.any_eq_true _ _).mp hreport
  obtain ⟨hy, hlook⟩ := Bool.and_eq_true_iff.mp h
  obtain rfl := of_decide_eq_true hy
  obtain ⟨⟨m₂, y⟩, hrecheck, h⟩ := (Option.any_eq_true _ _).mp hlook
  obtain ⟨hy, hsleeps⟩ := Bool.and_eq_true_iff.mp h
  obtain rfl := of_decide_eq_true hy
  exact ⟨m, m₁, m₂, es, _, Run.of_trace? htrace, of_decide_eq_true hasleep,
    of_decide_eq_true hwoken, hstep, rfl, hrecheck, of_decide_eq_true hsleeps⟩

end Monitor

end Table

end WriteAhead
