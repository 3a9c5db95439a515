import Mathlib.Data.List.Infix
import WriteAhead.Proofs.Table.Effects

/-!
# Who sleeps at a table

Three kinds of callers sleep at a table, and what they wait for can come about in several ways: by a
report, by a mark, by a release, by a shutdown. At every moment whoever sleeps would be sent back to
sleep if it looked. This needs that callers do not wait in pairs for a join in one slot, since a
join that holds wakes one of them only.

## Key results

- `Turn.isAlert`, `Turn.dismisses`: no turn forgets a sleeper
- `Run.unsatisfied`: nobody is asleep whose call could return
-/

namespace WriteAhead.Table

/-- The write in whose slot a call waits for a join, if it does. -/
def Want.joinSlot? : Want → Option WriteId
  | .join id _ => some id
  | .slot _ | .drain => none

/-- The write at whose slot a call waits, if it waits at one. -/
def Want.slotId? : Want → Option WriteId
  | .slot id | .join id _ => some id
  | .drain => none

/-- Who waits for a join in the slot of `id` is found by `joinSlot?`. -/
theorem Want.joinSlot?_of_isJoin {want : Want} {id : WriteId} (h : want.isJoin id = true) :
    want.joinSlot? = some id := by
  cases want with
  | join i stage => rw [joinSlot?, beq_iff_eq.mp h]
  | slot | drain => exact nomatch h

namespace Monitor

variable {κ : Type} {m m' : Monitor κ}

/-- At most one caller waits for a join in each slot, whether it sleeps or has been woken. -/
def JoinsAlone (m : Monitor κ) : Prop := (m.waiters.all.filterMap (·.2.joinSlot?)).Nodup

/-- Callers that are alone in waiting for a join are apart from each other, as `notifyOne` needs
it. -/
theorem JoinsAlone.joinsApart (h : m.JoinsAlone) : m.JoinsApart := by
  -- The slots in which callers wait differ, and the sleepers are some of these callers.
  have hall := List.pairwise_filterMap.mp h
  rw [Waiters.all, List.pairwise_append] at hall
  refine hall.1.imp fun {c c'} hne id hjoin => ?_
  cases hjoin' : c'.2.isJoin id with
  | false => rfl
  | true =>
    exact absurd rfl (hne id (Want.joinSlot?_of_isJoin hjoin) id (Want.joinSlot?_of_isJoin hjoin'))

/-- After a shutdown only those sleep who wait for the whole table. -/
def Dismisses (m : Monitor κ) : Prop :=
  m.table.isShutDown = true → ∀ c ∈ m.waiters.asleep, c.2 = .drain

/-- A change after which nobody else is asleep keeps `Dismisses`, if it does not shut the table
down. -/
private theorem Dismisses.mono (h : m.Dismisses)
    (hdown : m'.table.isShutDown = m.table.isShutDown)
    (hasleep : m'.waiters.asleep ⊆ m.waiters.asleep) : m'.Dismisses :=
  fun hd c hc => h (hdown ▸ hd) c (hasleep hc)

/-- A call that `Lacks` what it waits for is sent back to sleep by `attempt`, unless the table was
shut down in the meantime. -/
theorem attempt_of_lacks {k : κ} {want : Want} (hlacks : Lacks m.table want)
    (hdown : m.table.isShutDown = true → want = .drain) : (m.attempt k want).2 = none := by
  cases want with
  | slot id =>
    obtain ⟨s, hs, huse⟩ := hlacks
    cases hd : m.table.isShutDown with
    | true => cases hdown hd
    | false => simp [attempt, acquire, hs, hd, huse]
  | join id stage =>
    obtain ⟨s, hs, hjoin⟩ := hlacks
    cases hd : m.table.isShutDown with
    | true => cases hdown hd
    | false => simp [attempt, hs, hd, hjoin]
  | drain =>
    have hflight : m.table.isDrained = false := by simpa [isDrained, Lacks] using hlacks
    simp [attempt, hflight]

variable [DecidableEq κ] {a : Action κ} {y : Yield}

/-! ## Turns -/

/-- A caller that falls asleep at a table that is shut down waits for it to drain. `wait_for_all`
alone does not look at the flag. -/
theorem Visit.dismisses {k : κ} {want : Want} {first : Bool} {r : Option Reply}
    (h : m.Visit k want first m' r) (hm : m.Dismisses) : m'.Dismisses := by
  obtain ⟨w, hlook, hattempt⟩ := h
  have hw : Dismisses { m with waiters := w } :=
    hm.mono rfl fun c hc => asleep_look hlook ▸ hc
  -- Who goes to sleep now was told that the table is open, or waits for the whole table.
  have hsleep (hopen : want ≠ .drain → m.table.isShutDown = false) :
      Dismisses { m with waiters := w.sleep k want } := by
    intro hd c hc
    simp only [Waiters.sleep, List.mem_append, List.mem_singleton] at hc
    rcases hc with hc | rfl
    · exact hw hd c hc
    · by_contra hne
      rw [hopen hne] at hd
      cases hd
  cases want with
  | slot id =>
    cases attempt_slot hattempt with
    | granted hacquire =>
      obtain ⟨s, -, -, -, hrep⟩ := acquire_granted hacquire
      exact hw.mono hrep.isShutDown_eq (List.Subset.refl _)
    | refused => exact hw
    | busy hacquire => exact hsleep fun _ => (acquire_busy hacquire).1
  | join id stage =>
    cases attempt_join hattempt with
    | holds => exact hw
    | refused => exact hw
    | failed => exact hw
    | lacks hslot hjoin hopen => exact hsleep fun _ => hopen
  | drain =>
    cases attempt_drain hattempt with
    | holds => exact hw
    | lacks => exact hsleep fun hne => absurd rfl hne

/-- A `Turn` keeps a table alert if callers do not wait in pairs for a join: whatever becomes true
wakes those who wait for it. -/
theorem Turn.isAlert (h : m.Turn a y m') (hapart : m.JoinsApart) (halert : m.IsAlert) :
    m'.IsAlert := by
  cases h with
  | visited hwant hvisit => exact hvisit.isAlert halert
  | stirred k => exact fun c hc => halert c (Waiters.asleep_stir_subset _ k hc)
  | issued hissue => exact halert.recordIssue hissue
  | reported hreport => exact halert.recordCompletion hapart hreport
  | marked hmark => exact halert.markCheckpointDone hmark
  | unissued | unmarked => exact halert
  | shutDown =>
    intro c hc
    rw [asleep_shutDown] at hc
    exact absurd hc List.not_mem_nil

/-- A `Turn` leaves nobody asleep whom a shutdown should have woken. -/
theorem Turn.dismisses (h : m.Turn a y m') (hm : m.Dismisses) : m'.Dismisses := by
  cases h with
  | visited hwant hvisit => exact hvisit.dismisses hm
  | stirred k => exact hm.mono rfl (Waiters.asleep_stir_subset _ k)
  | issued hissue =>
    obtain ⟨s, -, -, hrep⟩ := recordIssue_ok (recordIssue_table hissue)
    exact hm.mono hrep.isShutDown_eq (by rw [recordIssue_waiters hissue]; exact List.Subset.refl _)
  | reported hreport =>
    exact hm.mono (recordCompletion_isShutDown (recordCompletion_table hreport))
      (recordCompletion_asleep hreport)
  | marked hmark =>
    obtain ⟨s, -, hrep⟩ := markCheckpointDone_ok (markCheckpointDone_table hmark)
    exact hm.mono hrep.isShutDown_eq (markCheckpointDone_asleep hmark)
  | unissued | unmarked => exact hm
  | shutDown =>
    intro _ c hc
    rw [asleep_shutDown] at hc
    exact absurd hc List.not_mem_nil

/-! ## Slots of the table -/

/-- Nobody waits at a slot that the table does not have. -/
def WaitsWithin (m : Monitor κ) : Prop :=
  ∀ c ∈ m.waiters.all, ∀ id, c.2.slotId? = some id → id < m.table.slots.size

omit [DecidableEq κ] in
/-- A change after which nobody else waits keeps `WaitsWithin`, if the table keeps its size. -/
private theorem WaitsWithin.of_subset (h : m.WaitsWithin)
    (hsize : m'.table.slots.size = m.table.slots.size)
    (hall : m'.waiters.all ⊆ m.waiters.all) : m'.WaitsWithin :=
  fun c hc id hid => hsize ▸ h c (hall hc) id hid

omit [DecidableEq κ] in
/-- What a call `Lacks` at a slot is lacking at a slot of the table. -/
theorem lt_size_of_lacks {t : Table} {want : Want} {id : WriteId} (h : Lacks t want)
    (hid : want.slotId? = some id) : id < t.slots.size := by
  cases want with
  | slot i | join i stage =>
    obtain rfl := Option.some.inj hid
    obtain ⟨s, hs, -⟩ := h
    exact (Array.getElem?_eq_some_iff.mp hs).1
  | drain => exact nomatch hid

/-- A caller that falls asleep in a `Visit` lacks what it came for. -/
theorem Visit.lacks {k : κ} {want : Want} {first : Bool} (h : m.Visit k want first m' none) :
    Lacks m.table want := by
  obtain ⟨w, -, hattempt⟩ := h
  cases want with
  | slot id => cases attempt_slot hattempt with
    | busy hacquire => exact (acquire_busy hacquire).2
  | join id stage => cases attempt_join hattempt with
    | lacks hslot hjoin => exact ⟨_, hslot, hjoin⟩
  | drain => cases attempt_drain hattempt with
    | lacks hflight => exact hflight

/-- A `Turn` sends nobody to wait at a slot that the table does not have: such a call is answered at
once. -/
theorem Turn.waitsWithin (h : m.Turn a y m') (hm : m.WaitsWithin) : m'.WaitsWithin := by
  have hsize := h.effected.size_eq
  cases h with
  | @visited _ k want first r _ hwant hvisit =>
    obtain ⟨w, hlook, hwaiters⟩ := hvisit.waiters
    intro c hc id hid
    rw [hsize]
    rw [hwaiters] at hc
    cases r with
    | some r => exact hm c (hlook.all_subset hc) id hid
    | none =>
      -- Among those who waited there is a new one, which was sent to sleep at its slot.
      rcases List.mem_cons.mp ((w.all_sleep k want).mem_iff.mp hc) with rfl | hc
      · exact lt_size_of_lacks hvisit.lacks hid
      · exact hm c (hlook.all_subset hc) id hid
  | stirred k => exact hm.of_subset hsize (Waiters.all_stir _ k).subset
  | issued hissue =>
    refine hm.of_subset hsize ?_
    rw [recordIssue_waiters hissue]
    exact List.Subset.refl _
  | reported hreport => exact hm.of_subset hsize (recordCompletion_all hreport).subset
  | marked hmark => exact hm.of_subset hsize (markCheckpointDone_all hmark).subset
  | unissued | unmarked => exact hm
  | shutDown => exact hm.of_subset hsize (shutDown_all m).subset

/-! ## Runs -/

variable {capacity : Nat} {as : List (Action κ)} {es : List Effect}

/-- At every moment of a run at most one caller waits for a join in each slot. -/
def JoinsAloneThroughout (capacity : Nat) (as : List (Action κ)) : Prop :=
  ∀ before, before <+: as → ∀ m es, Run capacity before m es → m.JoinsAlone

/-- Nobody asleep at a table would be answered if it looked. -/
structure SleepsRightly (m : Monitor κ) : Prop where
  /-- The slot that a caller waits for is in use, and the table not shut down. -/
  slot : ∀ k id, (k, .slot id) ∈ m.waiters.asleep →
    m.table.isShutDown = false ∧ ∃ s, m.table.slot? id = some s ∧ s.inUse = true
  /-- The join that a caller waits for does not hold, and the table is not shut down. -/
  join : ∀ k id stage, (k, .join id stage) ∈ m.waiters.asleep → m.table.isShutDown = false ∧
    ∃ s, m.table.slot? id = some s ∧ s.completed.containsAll stage.join = false
  /-- Something is in flight while a caller waits for the whole table. -/
  drain : ∀ k, (k, .drain) ∈ m.waiters.asleep → 0 < m.table.inFlight
  /-- Every sleeping caller would be sent back to sleep. -/
  unanswered : ∀ c ∈ m.waiters.asleep, (m.attempt c.1 c.2).2 = none

/-- Nobody sleeps through a shutdown in a run, but for callers that wait for the whole table
(`Dismisses`). -/
theorem Run.dismisses (h : Run capacity as m es) : m.Dismisses := by
  induction h with
  | start => exact nofun
  | step hrun hstep ih => exact (turn_of_step hstep).dismisses ih

/-- In a run whose joins are alone throughout, whoever sleeps `Lacks` what it waits for. -/
theorem Run.isAlert (h : Run capacity as m es) (halone : JoinsAloneThroughout capacity as) :
    m.IsAlert := by
  induction h with
  | start => exact nofun
  | @step as m m' es a y hrun hstep ih =>
    -- The joins were alone before the step too.
    have hbefore : JoinsAloneThroughout capacity as :=
      fun before hbefore => halone before (hbefore.trans (List.prefix_append as [a]))
    have hapart : m.JoinsApart := (hbefore as (List.prefix_refl as) m es hrun).joinsApart
    exact (turn_of_step hstep).isAlert hapart (ih hbefore)

/-- Whatever calls come to a table, in whatever interleaving, nobody is ever asleep whose call could
return (`SleepsRightly`), if at most one caller at a time waits for a join in each slot. -/
theorem Run.unsatisfied (h : Run capacity as m es) (halone : JoinsAloneThroughout capacity as) :
    m.SleepsRightly := by
  have hlacks := h.isAlert halone
  have hdismisses := h.dismisses
  -- Who does not wait for the whole table sleeps at one that is not shut down.
  have hopen : ∀ c ∈ m.waiters.asleep, c.2 ≠ .drain → m.table.isShutDown = false := by
    intro c hc hne
    cases hd : m.table.isShutDown with
    | false => rfl
    | true => exact absurd (hdismisses hd c hc) hne
  -- Each field reads off what the sleeper lacks; a shutdown is ruled out by `hopen`.
  constructor
  case slot =>
    intro k id hc
    exact ⟨hopen _ hc nofun, hlacks _ hc⟩
  case join =>
    intro k id stage hc
    exact ⟨hopen _ hc nofun, hlacks _ hc⟩
  case drain =>
    intro k hc
    exact Nat.pos_of_ne_zero (hlacks _ hc)
  case unanswered =>
    intro c hc
    exact attempt_of_lacks (hlacks c hc) fun hd => hdismisses hd c hc

/-- One caller sleeps for each kind of want, two of them for joins in different slots. A sleeper
that wakes for no reason sleeps again. -/
theorem unsatisfied_of_stir :
    ∃ as : List (Action Nat), as = [.enter 0 (.slot 0), .enter 0 (.slot 1), .enter 1 (.slot 0),
        .enter 2 (.join 0 .metadata), .enter 3 (.join 1 .commit), .enter 4 .drain, .issue 0,
        .complete 0 .writeData (some 1), .stir 2, .recheck 2] ∧
      ∃ m es, Run 2 as m es ∧ m.waiters.asleep = [(1, .slot 0), (3, .join 1 .commit), (4, .drain),
        (2, .join 0 .metadata)] ∧ m.SleepsRightly := by
  refine ⟨_, rfl, ?_⟩
  generalize has : ([.enter 0 (.slot 0), .enter 0 (.slot 1), .enter 1 (.slot 0),
    .enter 2 (.join 0 .metadata), .enter 3 (.join 1 .commit), .enter 4 .drain, .issue 0,
    .complete 0 .writeData (some 1), .stir 2, .recheck 2] : List (Action Nat)) = as
  have hend : (trace? 2 as).map (·.1.waiters.asleep) =
      some [(1, .slot 0), (3, .join 1 .commit), (4, .drain), (2, .join 0 .metadata)] := by
    subst has
    decide +kernel
  -- The joins are alone after each of the eleven beginnings of the run.
  have hall : ∀ before ∈ as.inits, ∀ r ∈ trace? 2 before,
      (r.1.waiters.all.filterMap (·.2.joinSlot?)).Nodup := by
    subst has
    decide +kernel
  obtain ⟨⟨m, es⟩, htrace, hasleep⟩ := Option.map_eq_some_iff.mp hend
  have hrun := Run.of_trace? htrace
  refine ⟨m, es, hrun, hasleep, hrun.unsatisfied ?_⟩
  intro before hbefore m₀ es₀ hrun₀
  exact hall before ((List.mem_inits before as).mpr hbefore) (m₀, es₀) hrun₀.trace?_eq

end Monitor

end WriteAhead.Table
