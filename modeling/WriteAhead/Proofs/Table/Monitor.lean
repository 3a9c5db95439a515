import WriteAhead.Proofs.Table.Slots
import WriteAhead.Proofs.Waiters
import WriteAhead.Table.Monitor

/-!
# What a blocking call does to a table, and why nobody sleeps for ever

A blocking call on the table is answered or falls asleep because what it waits for does not hold.
`IsAlert` says that this stays so: who sleeps for a slot sleeps while it is in use, who sleeps for a
join sleeps while it does not hold, who sleeps for the whole table sleeps while something is in
flight. A join wakes a single caller of the slot, so this needs at most one of them at a time
(`JoinsApart`).

## Key results

- `attempt_slot`, `attempt_join`, `attempt_drain`: the outcomes of a critical section
- `IsAlert.recordCompletion`, `IsAlert.markCheckpointDone`: who need not sleep any more is woken
-/

namespace WriteAhead.Table.Monitor

variable {κ : Type} {m m' : Monitor κ} {k : κ} {id : WriteId} {stage : Stage}

/-! ## Outcomes of a critical section -/

/-- What a critical section of a claim on a slot comes to. -/
inductive Claimed (m : Monitor κ) (k : κ) (id : WriteId) : Monitor κ → Option Reply → Prop where
  | granted {t : Table} {g : Generation} (hacquire : m.table.acquire id = .granted t g) :
      Claimed m k id { m with table := t } (some (.acquired g))
  | refused {e : JournalError} (hacquire : m.table.acquire id = .refused e) :
      Claimed m k id m (some (.refused e))
  | busy (hacquire : m.table.acquire id = .busy) :
      Claimed m k id { m with waiters := m.waiters.sleep k (.slot id) } none

/-- What a critical section of a wait for a join comes to. -/
inductive Joined (m : Monitor κ) (k : κ) (id : WriteId) (stage : Stage) :
    Monitor κ → Option Reply → Prop where
  | holds {s : Slot} (hslot : m.table.slot? id = some s)
      (hjoin : s.completed.containsAll stage.join = true) : Joined m k id stage m (some .joined)
  | refused (hdown : m.table.isShutDown = true) :
      Joined m k id stage m (some (.refused .shutDown))
  | failed (f : Fault) (hslot : m.table.slot? id = none) :
      Joined m k id stage m (some (.failed f))
  | lacks {s : Slot} (hslot : m.table.slot? id = some s)
      (hjoin : s.completed.containsAll stage.join = false)
      (hopen : m.table.isShutDown = false) :
      Joined m k id stage { m with waiters := m.waiters.sleep k (.join id stage) } none

/-- What a critical section of a wait for the whole table comes to. -/
inductive Drained (m : Monitor κ) (k : κ) : Monitor κ → Option Reply → Prop where
  | holds (hdrained : m.table.inFlight = 0) : Drained m k m (some .drained)
  | lacks (hflight : m.table.inFlight ≠ 0) :
      Drained m k { m with waiters := m.waiters.sleep k .drain } none

/-- What `attempt` does for a claim is one of the cases of `Claimed`, as `Table.acquire` decides. -/
theorem attempt_slot {r : Option Reply} (h : m.attempt k (.slot id) = (m', r)) :
    Claimed m k id m' r := by
  simp only [attempt] at h
  split at h <;> obtain ⟨rfl, rfl⟩ := Prod.mk.inj h
  · rename_i hacquire
    exact .granted hacquire
  · rename_i hacquire
    exact .refused hacquire
  · rename_i hacquire
    exact .busy hacquire

/-- What `attempt` does for a wait on a join is one of the cases of `Joined`. -/
theorem attempt_join {r : Option Reply} (h : m.attempt k (.join id stage) = (m', r)) :
    Joined m k id stage m' r := by
  simp only [attempt] at h
  split at h
  · rename_i hslot
    obtain ⟨rfl, rfl⟩ := Prod.mk.inj h
    exact .failed _ hslot
  · rename_i s hslot
    -- A join that holds is answered even after a shutdown: the flags are looked at first.
    split at h
    · rename_i hjoin
      obtain ⟨rfl, rfl⟩ := Prod.mk.inj h
      exact .holds hslot hjoin
    · rename_i hjoin
      split at h <;> obtain ⟨rfl, rfl⟩ := Prod.mk.inj h
      · rename_i hdown
        exact .refused hdown
      · rename_i hdown
        exact .lacks hslot (by simpa using hjoin) (by simpa using hdown)

/-- What `attempt` does for a wait on the whole table is one of the cases of `Drained`. -/
theorem attempt_drain {r : Option Reply} (h : m.attempt k .drain = (m', r)) :
    Drained m k m' r := by
  simp only [attempt] at h
  split at h <;> obtain ⟨rfl, rfl⟩ := Prod.mk.inj h
  · rename_i hdrained
    exact .holds (by simpa [isDrained] using hdrained)
  · rename_i hdrained
    exact .lacks (by simpa [isDrained] using hdrained)

/-! ## Rightful sleepers -/

/-- Whether what a caller waits for does not hold. -/
def Lacks (t : Table) : Want → Prop
  | .slot id => ∃ s, t.slot? id = some s ∧ s.inUse = true
  | .join id stage => ∃ s, t.slot? id = some s ∧ s.completed.containsAll stage.join = false
  | .drain => t.inFlight ≠ 0

/-- Everyone asleep waits for something that does not hold. -/
def IsAlert (m : Monitor κ) : Prop := ∀ c ∈ m.waiters.asleep, Lacks m.table c.2

/-- At most one caller sleeps for a join in each slot. -/
def JoinsApart (m : Monitor κ) : Prop :=
  m.waiters.asleep.Pairwise fun c c' => ∀ id, c.2.isJoin id = true → c'.2.isJoin id = false

/-- What a caller `Lacks` it still lacks in a table with one slot replaced, if that slot allows. -/
theorem Lacks.replaces {t t' : Table} {s s' : Slot} {want : Want} (h : Lacks t want)
    (hrep : Replaces t t' id s s') (hslot : want = .slot id → s'.inUse = true)
    (hjoin : ∀ stage, want = .join id stage → s.completed.containsAll stage.join = false →
      s'.completed.containsAll stage.join = false)
    (hdrain : want = .drain → t'.inFlight ≠ 0) : Lacks t' want := by
  -- Only a caller that waits for this slot, for a join in it or for the whole table can be
  -- concerned.
  cases want with
  | slot i =>
    obtain ⟨s₀, hs₀, huse⟩ := h
    by_cases hi : i = id
    · subst hi
      exact ⟨s', hrep.slot?_self, hslot rfl⟩
    · exact ⟨s₀, by rw [hrep.slot?_of_ne hi, hs₀], huse⟩
  | join i stage =>
    obtain ⟨s₀, hs₀, hlacks⟩ := h
    by_cases hi : i = id
    · subst hi
      rw [hrep.old, Option.some.injEq] at hs₀
      subst hs₀
      exact ⟨s', hrep.slot?_self, hjoin stage rfl hlacks⟩
    · exact ⟨s₀, by rw [hrep.slot?_of_ne hi, hs₀], hlacks⟩
  | drain => exact hdrain rfl

/-- A caller that falls asleep for what it `Lacks` keeps the table alert. -/
theorem IsAlert.sleep {want : Want} (h : m.IsAlert) (hwant : Lacks m.table want) :
    IsAlert { m with waiters := m.waiters.sleep k want } := by
  intro c hc
  simp only [Waiters.sleep, List.mem_append, List.mem_singleton] at hc
  rcases hc with hc | rfl
  · exact h c hc
  · exact hwant

/-! ## Operations -/

/-- No join holds for an occupant of which nothing was reported: every `Stage.join` has an
operation. -/
theorem containsAll_empty_join (stage : Stage) : OpSet.empty.containsAll stage.join = false := by
  cases stage <;> decide

/-- A report of an operation says nothing about the joins of other stages than `op.stage`. -/
theorem containsAll_insert_join {c : OpSet} {op : Operation} (h : op.stage ≠ stage) :
    (c.insert op).containsAll stage.join = c.containsAll stage.join := by
  rw [Bool.eq_iff_iff, OpSet.containsAll_iff, OpSet.containsAll_iff]
  refine forall_congr' fun o => ?_
  simp only [Stage.contains_join, decide_eq_true_eq, OpSet.contains_insert, Bool.or_eq_true]
  constructor
  · intro ho hstage
    refine (ho hstage).resolve_right fun heq => h ?_
    rw [← heq, hstage]
  · exact fun ho hstage => .inl (ho hstage)

/-- A claim that `acquire` grants keeps the table alert: the slot stays in use from then on. -/
theorem IsAlert.granted {t : Table} {g : Generation} (h : m.IsAlert)
    (hacquire : m.table.acquire id = .granted t g) : IsAlert { m with table := t } := by
  obtain ⟨s, huse, -, -, hrep⟩ := acquire_granted hacquire
  refine fun c hc => (h c hc).replaces hrep (fun _ => rfl)
    (fun stage _ _ => containsAll_empty_join stage) fun _ => ?_
  rw [hrep.inFlight_eq, huse]
  simp [Slot.occupy]

/-- Putting an operation on record with `recordIssue` keeps the table alert: it changes no flag and
no count that anybody waits for. -/
theorem IsAlert.recordIssue {g : Generation} (h : m.IsAlert)
    (hissue : m.recordIssue id = .ok (m', g)) : m'.IsAlert := by
  unfold Monitor.recordIssue at hissue
  cases hok : m.table.recordIssue id with
  | error f => rw [hok] at hissue; exact nomatch hissue
  | ok p =>
    obtain ⟨t, g'⟩ := p
    rw [hok] at hissue
    obtain ⟨rfl, rfl⟩ := Prod.mk.inj (Except.ok.inj hissue)
    obtain ⟨s, huse, -, hrep⟩ := recordIssue_ok hok
    refine fun c hc => (h c hc).replaces hrep (fun _ => huse) (fun _ _ hl => hl) fun hd => ?_
    have hflight : m.table.inFlight ≠ 0 := by
      have := h c hc
      rwa [hd] at this
    rw [hrep.inFlight_eq]
    simpa [Slot.issue] using hflight

/-- Nobody sleeps for a join in the slot once `notifyOne` has woken the only one who may. -/
private theorem JoinsApart.not_asleep (h : m.JoinsApart) {c : κ × Want}
    (hc : c ∈ (m.waiters.notifyOne (Want.isJoin id)).asleep) : c.2.isJoin id = false := by
  unfold Waiters.notifyOne at hc
  split at hc
  · -- The first one is woken; all others before it and behind it wait for something else.
    rename_i c₀ hfind
    obtain ⟨hp, before, after, heq, hbefore⟩ := List.find?_eq_some_iff_append.mp hfind
    have herase : m.waiters.asleep.eraseP (fun c => c.2.isJoin id) = before ++ after := by
      rw [heq, List.eraseP_append_right _ (by simpa using hbefore)]
      simp [hp]
    simp only [herase, List.mem_append] at hc
    rcases hc with hc | hc
    · simpa using hbefore c hc
    · unfold JoinsApart at h
      rw [heq, List.pairwise_append, List.pairwise_cons] at h
      exact h.2.1.1 c hc id hp
  · rename_i hnone
    simpa using List.find?_eq_none.mp hnone c hc

/-- Who sleeps after `notifyRelease` slept before. If the slot was released it does not wait for it,
nor for the whole table if that is drained. -/
private theorem mem_asleep_notifyRelease {released : Bool} {c : κ × Want}
    (hc : c ∈ (m.notifyRelease id released).waiters.asleep) :
    c ∈ m.waiters.asleep ∧
      (released = true → c.2 ≠ .slot id ∧ (m.table.inFlight = 0 → c.2 ≠ .drain)) := by
  unfold notifyRelease at hc
  split at hc
  · rename_i hreleased
    simp only at hc
    split at hc
    · -- The slot was the last in use, so those who wait for all of them are woken too.
      have hdrain := Waiters.not_of_mem_asleep_notifyAll hc
      have hc := Waiters.asleep_notifyAll_subset _ _ hc
      have hslot := Waiters.not_of_mem_asleep_notifyAll hc
      refine ⟨Waiters.asleep_notifyAll_subset _ _ hc, fun _ => ⟨?_, fun _ => ?_⟩⟩
      · rintro heq
        simp [heq, Want.isSlot] at hslot
      · rintro heq
        simp [heq, Want.isDrain] at hdrain
    · rename_i hflight
      have hslot := Waiters.not_of_mem_asleep_notifyAll hc
      refine ⟨Waiters.asleep_notifyAll_subset _ _ hc, fun _ => ⟨?_, fun hzero => ?_⟩⟩
      · rintro heq
        simp [heq, Want.isSlot] at hslot
      · simp [isDrained, hzero] at hflight
  · rename_i hreleased
    exact ⟨hc, fun h => absurd h hreleased⟩

/-- Announcing a release with `notifyRelease` does nothing to the table. -/
theorem notifyRelease_table (m : Monitor κ) (id : WriteId) (released : Bool) :
    (m.notifyRelease id released).table = m.table := by
  unfold notifyRelease
  split <;> rfl

/-- A slot replaced by its settled form keeps a caller asleep that `notifyRelease` did not wake. -/
private theorem Lacks.settle {t t' : Table} {s s' : Slot} {c : κ × Want} (h : Lacks t c.2)
    (hrep : Replaces t t' id s s'.settle) (huse : s'.inUse = s.inUse)
    (hawake : (s'.inUse && s'.isDrained) = true →
      c.2 ≠ .slot id ∧ (t'.inFlight = 0 → c.2 ≠ .drain))
    (hjoin : ∀ stage, c.2 = .join id stage → s'.completed.containsAll stage.join = false) :
    Lacks t' c.2 := by
  cases hd : s'.inUse && s'.isDrained with
  -- The slot was released: its flags are reset, so every join in it is lacking again.
  | true =>
    obtain ⟨hslot, hdrain⟩ := hawake hd
    rw [Slot.settle, if_pos hd] at hrep
    exact h.replaces hrep (fun heq => absurd heq hslot)
      (fun stage _ _ => containsAll_empty_join stage) (fun heq hzero => hdrain hzero heq)
  | false =>
    rw [Slot.settle, hd] at hrep
    refine h.replaces hrep (fun heq => ?_) (fun stage heq _ => hjoin stage heq) fun heq => ?_
    · -- Who waits for the slot waits while it is in use, so the new one is in use as well.
      rw [heq] at h
      obtain ⟨s₀, hs₀, huse₀⟩ := h
      rw [hrep.old, Option.some.injEq] at hs₀
      exact huse.trans (hs₀ ▸ huse₀)
    · rw [heq] at h
      rw [hrep.inFlight_eq]
      show t.inFlight + s'.inUse.toNat - s.inUse.toNat ≠ 0
      rw [huse, Nat.add_sub_cancel]
      exact h

/-- A report keeps the table alert: `recordCompletion` wakes whoever waited for the join that holds
with it, and announces a release. -/
theorem IsAlert.recordCompletion {op : Operation} {g : Option Generation} {v : Verdict}
    (h : m.IsAlert) (hapart : m.JoinsApart) (hreport : m.recordCompletion id op g = (m', v)) :
    m'.IsAlert := by
  unfold Monitor.recordCompletion at hreport
  cases hrc : m.table.recordCompletion id op g with
  | mk t v₀ =>
    rw [hrc] at hreport
    rcases recordCompletion_cases hrc with ⟨hrefused, hslots, -, hflight, -⟩ |
      ⟨s, haccepts, hnew, rfl, hrep⟩
    · -- A refused report changes no slot, and wakes nobody.
      have hm : m' = { m with table := t } := by
        cases v₀ with
        | accepted => simp [Verdict.isAccepted] at hrefused
        | unknown | stale | duplicate => exact (Prod.mk.inj hreport).1.symm
      subst hm
      intro c hc
      have hlacks := h c hc
      unfold Lacks slot? at hlacks ⊢
      rw [hslots, hflight]
      exact hlacks
    · have huse := Slot.inUse_of_accepts haccepts
      simp only [Verdict.ofSlot] at hreport
      obtain ⟨rfl, -⟩ := Prod.mk.inj hreport
      intro c hc
      rw [notifyRelease_table]
      obtain ⟨hc, hawake⟩ := mem_asleep_notifyRelease hc
      -- Whether the report woke a caller or not, who sleeps now slept before.
      have hold : c ∈ m.waiters.asleep := by
        simp only at hc
        split at hc
        · exact Waiters.asleep_notifyOne_subset _ _ hc
        · exact hc
      have hdrained : ((s.complete op).inUse && (s.complete op).isDrained) = true →
          (s.complete op).isDrained = true := fun hd => (Bool.and_eq_true_iff.mp hd).2
      refine (h c hold).settle hrep rfl (fun hd => hawake (hdrained hd)) fun stage heq => ?_
      have hlacks := h c hold
      rw [heq] at hlacks
      obtain ⟨s₀, hs₀, hlacks⟩ := hlacks
      rw [hrep.old, Option.some.injEq] at hs₀
      subst hs₀
      -- For another stage the join holds as little as before; for this one the caller was woken.
      by_cases hstage : op.stage = stage
      · subst hstage
        by_contra hjoined
        have hjoined : (s.completed.insert op).containsAll op.stage.join = true := by
          simpa [Slot.complete] using hjoined
        simp only [hjoined, if_true] at hc
        have := hapart.not_asleep hc
        simp [heq, Want.isJoin] at this
      · exact (containsAll_insert_join hstage).trans hlacks

/-- A mark of the checkpoint stage keeps the table alert: `markCheckpointDone` announces the release
that it may cause, and changes no flag that a join looks at. -/
theorem IsAlert.markCheckpointDone {released : Bool} (h : m.IsAlert)
    (hmark : m.markCheckpointDone id = .ok (m', released)) : m'.IsAlert := by
  unfold Monitor.markCheckpointDone at hmark
  cases hok : m.table.markCheckpointDone id with
  | error f => rw [hok] at hmark; exact nomatch hmark
  | ok p =>
    obtain ⟨t, released'⟩ := p
    rw [hok] at hmark
    obtain ⟨rfl, rfl⟩ := Prod.mk.inj (Except.ok.inj hmark)
    obtain ⟨s, hreleased, hrep⟩ := markCheckpointDone_ok hok
    intro c hc
    rw [notifyRelease_table]
    obtain ⟨hc, hawake⟩ := mem_asleep_notifyRelease hc
    -- A mark completes nothing, so a join that lacked something still lacks it.
    refine (h c hc).settle hrep rfl (fun hd => hawake (hreleased.trans hd)) fun stage heq => ?_
    have hlacks := h c hc
    rw [heq] at hlacks
    obtain ⟨s₀, hs₀, hlacks⟩ := hlacks
    rw [hrep.old, Option.some.injEq] at hs₀
    subst hs₀
    exact hlacks

/-- A `shutDown` leaves nobody asleep. -/
theorem asleep_shutDown (m : Monitor κ) : m.shutDown.waiters.asleep = [] := by
  rw [List.eq_nil_iff_forall_not_mem]
  intro c hc
  have hdrain := Waiters.not_of_mem_asleep_notifyAll hc
  have hother := Waiters.not_of_mem_asleep_notifyAll (Waiters.asleep_notifyAll_subset _ _ hc)
  simp [hdrain] at hother

/-! ## Waiting callers -/

/-- A successful `recordIssue` leaves the waiting callers alone. -/
theorem recordIssue_waiters {g : Generation} (h : m.recordIssue id = .ok (m', g)) :
    m'.waiters = m.waiters := by
  unfold Monitor.recordIssue at h
  cases hok : m.table.recordIssue id with
  | error f => rw [hok] at h; exact nomatch h
  | ok p =>
    rw [hok] at h
    obtain ⟨rfl, -⟩ := Prod.mk.inj (Except.ok.inj h)
    rfl

/-- Whom `notifyRelease` wakes still waits. -/
theorem notifyRelease_all (m : Monitor κ) (id : WriteId) (released : Bool) :
    (m.notifyRelease id released).waiters.all.Perm m.waiters.all := by
  unfold notifyRelease
  split
  · simp only
    split
    · exact (Waiters.all_notifyAll _ _).trans (Waiters.all_notifyAll _ _)
    · exact Waiters.all_notifyAll _ _
  · exact List.Perm.refl _

/-- A report wakes callers and sends nobody away: `recordCompletion` keeps `Waiters.all` but for the
order. -/
theorem recordCompletion_all {op : Operation} {g : Option Generation} {v : Verdict}
    (h : m.recordCompletion id op g = (m', v)) : m'.waiters.all.Perm m.waiters.all := by
  unfold Monitor.recordCompletion at h
  split at h
  · obtain ⟨rfl, -⟩ := Prod.mk.inj h
    refine (notifyRelease_all _ _ _).trans ?_
    simp only
    split
    · exact Waiters.all_notifyOne _ _
    · exact List.Perm.refl _
  · obtain ⟨rfl, -⟩ := Prod.mk.inj h
    exact List.Perm.refl _

/-- A mark wakes callers and sends nobody away: `markCheckpointDone` keeps `Waiters.all` but for the
order. -/
theorem markCheckpointDone_all {released : Bool}
    (h : m.markCheckpointDone id = .ok (m', released)) :
    m'.waiters.all.Perm m.waiters.all := by
  unfold Monitor.markCheckpointDone at h
  cases hok : m.table.markCheckpointDone id with
  | error f => rw [hok] at h; exact nomatch h
  | ok p =>
    rw [hok] at h
    obtain ⟨rfl, -⟩ := Prod.mk.inj (Except.ok.inj h)
    exact notifyRelease_all _ _ _

/-- Nobody falls asleep by `recordCompletion`. -/
theorem recordCompletion_asleep {op : Operation} {g : Option Generation} {v : Verdict}
    (h : m.recordCompletion id op g = (m', v)) : m'.waiters.asleep ⊆ m.waiters.asleep := by
  unfold Monitor.recordCompletion at h
  split at h
  · obtain ⟨rfl, -⟩ := Prod.mk.inj h
    intro c hc
    have hc := (mem_asleep_notifyRelease hc).1
    simp only at hc
    split at hc
    · exact Waiters.asleep_notifyOne_subset _ _ hc
    · exact hc
  · obtain ⟨rfl, -⟩ := Prod.mk.inj h
    exact List.Subset.refl _

/-- Nobody falls asleep by `markCheckpointDone`. -/
theorem markCheckpointDone_asleep {released : Bool}
    (h : m.markCheckpointDone id = .ok (m', released)) :
    m'.waiters.asleep ⊆ m.waiters.asleep := by
  unfold Monitor.markCheckpointDone at h
  cases hok : m.table.markCheckpointDone id with
  | error f => rw [hok] at h; exact nomatch h
  | ok p =>
    rw [hok] at h
    obtain ⟨rfl, -⟩ := Prod.mk.inj (Except.ok.inj h)
    exact fun c hc => (mem_asleep_notifyRelease hc).1

/-- Everybody whom `shutDown` wakes still waits. -/
theorem shutDown_all (m : Monitor κ) : m.shutDown.waiters.all.Perm m.waiters.all :=
  (Waiters.all_notifyAll _ _).trans (Waiters.all_notifyAll _ _)

/-! ## The table of a monitor -/

/-- What the monitor does in `recordIssue` is what its table does. -/
theorem recordIssue_table {g : Generation} (h : m.recordIssue id = .ok (m', g)) :
    m.table.recordIssue id = .ok (m'.table, g) := by
  unfold Monitor.recordIssue at h
  cases hok : m.table.recordIssue id with
  | error f => rw [hok] at h; exact nomatch h
  | ok p =>
    rw [hok] at h
    obtain ⟨rfl, rfl⟩ := Prod.mk.inj (Except.ok.inj h)
    rfl

/-- A fault of `recordIssue` is a fault of the table. -/
theorem recordIssue_error {f : Fault} (h : m.recordIssue id = .error f) :
    m.table.recordIssue id = .error f := by
  unfold Monitor.recordIssue at h
  cases hok : m.table.recordIssue id with
  | error f' =>
    rw [hok] at h
    rw [Except.error.inj h]
  | ok p => rw [hok] at h; exact nomatch h

/-- What the monitor does in `recordCompletion` is what its table does, and the verdict is the
same. -/
theorem recordCompletion_table {op : Operation} {g : Option Generation} {v : Verdict}
    (h : m.recordCompletion id op g = (m', v)) :
    m.table.recordCompletion id op g = (m'.table, v) := by
  unfold Monitor.recordCompletion at h
  split at h
  · rename_i t joined unissued released heq
    obtain ⟨rfl, rfl⟩ := Prod.mk.inj h
    rw [heq, notifyRelease_table]
  · rename_i t v' _ heq
    obtain ⟨rfl, rfl⟩ := Prod.mk.inj h
    exact heq

/-- What the monitor does in `markCheckpointDone` is what its table does. -/
theorem markCheckpointDone_table {released : Bool}
    (h : m.markCheckpointDone id = .ok (m', released)) :
    m.table.markCheckpointDone id = .ok (m'.table, released) := by
  unfold Monitor.markCheckpointDone at h
  cases hok : m.table.markCheckpointDone id with
  | error f => rw [hok] at h; exact nomatch h
  | ok p =>
    rw [hok] at h
    obtain ⟨rfl, rfl⟩ := Prod.mk.inj (Except.ok.inj h)
    rw [notifyRelease_table]

/-- Only an id without a slot makes `markCheckpointDone` fail. -/
theorem markCheckpointDone_error {f : Fault} (h : m.markCheckpointDone id = .error f) :
    m.table.slot? id = none := by
  unfold Monitor.markCheckpointDone Table.markCheckpointDone at h
  cases hslot : m.table.slot? id with
  | none => rfl
  | some s => rw [hslot] at h; exact nomatch h

variable [DecidableEq κ]

/-- A critical section of a blocking call, on the first look or on a later one. -/
def Visit (m : Monitor κ) (k : κ) (want : Want) (first : Bool) (m' : Monitor κ)
    (r : Option Reply) : Prop :=
  ∃ w, m.waiters.Look k want first w ∧ { m with waiters := w }.attempt k want = (m', r)

/-- A caller that comes in with `enter` looks for the first time. -/
theorem visit_enter {want : Want} {r : Option Reply} (h : m.enter k want = (m', r)) :
    m.Visit k want true m' r := ⟨_, .first, h⟩

/-- A caller that `recheck` answers was woken, and looks again for what it slept for. -/
theorem visit_recheck {r : Option Reply} (h : m.recheck k = some (m', r)) :
    ∃ want, m.waiters.wokenWant? k = some want ∧ m.Visit k want false m' r := by
  obtain ⟨want, hwant, heq⟩ := Option.map_eq_some_iff.mp h
  exact ⟨want, hwant, _, .again hwant, heq⟩

/-- Nobody falls asleep or wakes by a `Look`. -/
theorem asleep_look {want : Want} {first : Bool} {w : Waiters κ Want}
    (h : m.waiters.Look k want first w) : w.asleep = m.waiters.asleep := by
  cases h <;> rfl

namespace Visit

variable {want : Want} {first : Bool} {r : Option Reply}

/-- A caller that is not answered in a `Visit` falls asleep, and one that is answered does not
wait. -/
theorem waiters (h : m.Visit k want first m' r) :
    ∃ w, m.waiters.Look k want first w ∧
      m'.waiters = if r = none then w.sleep k want else w := by
  obtain ⟨w, hlook, hattempt⟩ := h
  refine ⟨w, hlook, ?_⟩
  cases want with
  | slot id => cases attempt_slot hattempt <;> rfl
  | join id stage => cases attempt_join hattempt <;> rfl
  | drain => cases attempt_drain hattempt <;> rfl

/-- What a claim on a slot does to the table: the slot is granted by `acquire`, or nothing
happens. -/
theorem slot_cases (h : m.Visit k (.slot id) first m' r) :
    (∃ g, r = some (.acquired g) ∧ m.table.acquire id = .granted m'.table g) ∨
      (∃ e, r = some (.refused e) ∧ m'.table = m.table) ∨ (r = none ∧ m'.table = m.table) := by
  obtain ⟨w, -, hattempt⟩ := h
  cases attempt_slot hattempt with
  | granted hacquire => exact .inl ⟨_, rfl, hacquire⟩
  | @refused e => exact .inr (.inl ⟨e, rfl, rfl⟩)
  | busy => exact .inr (.inr ⟨rfl, rfl⟩)

/-- A caller is refused a slot in a `Visit` for the reason that `acquire` has. -/
theorem slot_refused {e : JournalError} (h : m.Visit k (.slot id) first m' (some (.refused e))) :
    m.table.acquire id = .refused e := by
  obtain ⟨w, -, hattempt⟩ := h
  cases attempt_slot hattempt with
  | refused hacquire => exact hacquire

/-- Nobody gets a slot after a shutdown, or waits for one: `acquire` refuses. -/
theorem slot_of_isShutDown (h : m.Visit k (.slot id) first m' r)
    (hdown : m.table.isShutDown = true) : ∃ e, r = some (.refused e) ∧ m'.table = m.table := by
  obtain ⟨w, -, hattempt⟩ := h
  cases attempt_slot hattempt with
  | granted hacquire =>
    obtain ⟨-, -, hopen, -⟩ := acquire_granted hacquire
    exact absurd (hdown.symm.trans hopen) nofun
  | @refused e => exact ⟨e, rfl, rfl⟩
  | busy hacquire => exact absurd (hdown.symm.trans (acquire_busy hacquire).1) nofun

/-- A wait for a join does nothing to the table. It is answered with `joined` if the join holds, and
refused after a shutdown if not. -/
theorem join_cases (h : m.Visit k (.join id stage) first m' r) :
    m'.table = m.table ∧
      ((∃ s, r = some .joined ∧ m.table.slot? id = some s ∧
          s.completed.containsAll stage.join = true) ∨
        (r = some (.refused .shutDown) ∧ m.table.isShutDown = true) ∨
        (∃ f, r = some (.failed f) ∧ m.table.slot? id = none) ∨
        (r = none ∧ m.table.isShutDown = false)) := by
  obtain ⟨w, -, hattempt⟩ := h
  cases attempt_join hattempt with
  | holds hslot hjoin => exact ⟨rfl, .inl ⟨_, rfl, hslot, hjoin⟩⟩
  | refused hdown => exact ⟨rfl, .inr (.inl ⟨rfl, hdown⟩)⟩
  | failed f hslot => exact ⟨rfl, .inr (.inr (.inl ⟨f, rfl, hslot⟩))⟩
  | lacks _ _ hopen => exact ⟨rfl, .inr (.inr (.inr ⟨rfl, hopen⟩))⟩

/-- A wait for the whole table does nothing to it and ends when `inFlight` is 0. -/
theorem drain_cases (h : m.Visit k .drain first m' r) :
    m'.table = m.table ∧ ((r = some .drained ∧ m.table.inFlight = 0) ∨
      (r = none ∧ m.table.inFlight ≠ 0)) := by
  obtain ⟨w, -, hattempt⟩ := h
  cases attempt_drain hattempt with
  | holds hdrained => exact ⟨rfl, .inl ⟨rfl, hdrained⟩⟩
  | lacks hflight => exact ⟨rfl, .inr ⟨rfl, hflight⟩⟩

/-- A critical section of a blocking call (`Visit`) keeps a table alert: who falls asleep in it
lacks what it wants. -/
theorem isAlert (h : m.Visit k want first m' r) (halert : m.IsAlert) : m'.IsAlert := by
  obtain ⟨w, hlook, hattempt⟩ := h
  have halert : IsAlert { m with waiters := w } := fun c hc => halert c (asleep_look hlook ▸ hc)
  -- Who goes to sleep does so because the attempt failed, which is what being alert asks for.
  cases want with
  | slot id =>
    cases attempt_slot hattempt with
    | granted hacquire => exact halert.granted hacquire
    | refused => exact halert
    | busy hacquire => exact halert.sleep (acquire_busy hacquire).2
  | join id stage =>
    cases attempt_join hattempt with
    | holds => exact halert
    | refused => exact halert
    | failed => exact halert
    | lacks hslot hjoin => exact halert.sleep ⟨_, hslot, hjoin⟩
  | drain =>
    cases attempt_drain hattempt with
    | holds => exact halert
    | lacks hflight => exact halert.sleep hflight

end Visit

end WriteAhead.Table.Monitor
