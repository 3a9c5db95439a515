import WriteAhead.Proofs.Journal.Closing
import WriteAhead.Proofs.Journal.Faults

/-!
# A shutdown wakes every worker

The notifications of a close are owed by the shutdown alone, and it does nothing else before it has
sent them. So once the table is shut down nobody sleeps at a queue, and at the table only those
sleep who wait for all writes. A worker that waits has been woken then, and whatever its phase is,
it can go on.

## Key results

- `Change.tends`: what a step makes of a queue
- `Change.owed`: who owes what after a step
- `Run.asleep_queue`, `Run.asleep_table`: who sleeps once a shutdown has come to the workers
- `Run.worker_unblocked`: a worker that has not come to its end can go on
-/

namespace WriteAhead.Journal

variable {c : Config} {as : List Action} {j j' : Journal} {es : List Event} {a : Action}
  {s t : Stage} {step : Step}

/-! ## What a step does at a queue -/

/-- What a step makes of the queue of a stage. -/
inductive Tends (j : Journal) (t : Stage) : Action → Queue.Monitor Actor WriteId → Prop where
  | leaves {a : Action} : Tends j t a (j.queues.get t)
  /-- An actor sends a notification that it owes. -/
  | delivers {b : Actor} {m : Queue.Monitor Actor WriteId}
      (hdeliver : (j.queues.get t).deliver b = some m) : Tends j t (.act b) m
  /-- The worker of the stage looks for a write. -/
  | pops {first : Bool} {m : Queue.Monitor Actor WriteId} {r : Option (Queue.Reply WriteId)}
      (hphase : (j.workers.get t).phase = if first then .popping else .awaitingItem)
      (hvisit : (j.queues.get t).Visit (.worker t) .pop first m r) : Tends j t (.act (.worker t)) m
  /-- The worker of the stage before looks for room. -/
  | pushes {s : Stage} {id : WriteId} {first : Bool} {m : Queue.Monitor Actor WriteId}
      {r : Option (Queue.Reply WriteId)}
      (hvisit : (j.queues.get t).Visit (.worker s) (.push id) first m r) :
      Tends j t (.act (.worker s)) m
  /-- A caller looks for room in the first queue. -/
  | submits {k : Nat} {id : WriteId} {left : List WriteId} {answers : List (Option JournalError)}
      {first : Bool} {m : Queue.Monitor Actor WriteId} {r : Option (Queue.Reply WriteId)}
      (hcaller : j.callers[k]? =
        some (.submitter (if first then .admitted id else .awaitingRoom id) left answers))
      (hvisit : (j.queues.get t).Visit (.caller k) (.push id) first m r) :
      Tends j t (.act (.caller k)) m
  /-- A shutdown closes the queue. -/
  | closes (hclosing : j.closing = .closing t) :
      Tends j t (.act .closer) ((j.queues.get t).close .closer)

/-- A step changes one queue at most, and does so as its actor: it `Tends` the others as they
are. -/
theorem Change.tends (h : Change j a step) (t : Stage) : j.Tends t a (step.1.queues.get t) := by
  -- A step touches one queue at most, and does there what `Tends` lists.
  have hset {s : Stage} {m : Queue.Monitor Actor WriteId} {j₁ : Journal}
      (hqueues : j₁.queues = (j.setQueue s m).queues) (htends : j.Tends s a m) :
      j.Tends t a (j₁.queues.get t) := by
    rw [hqueues, setQueue, PerStage.get_set]
    split
    · rename_i ht
      rw [ht]
      exact htends
    · exact .leaves
  have hsame {j₁ : Journal} (hqueues : j₁.queues = j.queues) : j.Tends t a (j₁.queues.get t) := by
    rw [hqueues]
    exact .leaves
  cases h with
  | deliver hdeliver => exact hset rfl (.delivers hdeliver)
  | pop hphase hvisit => exact hset (sameMonitors_afterPop ..).queues_eq (.pops hphase hvisit)
  | push hnext hphase hvisit => exact hset (sameMonitors_afterPush ..).queues_eq (.pushes hvisit)
  | submit hcaller hvisit =>
    exact hset (sameMonitors_afterSubmit ..).queues_eq (.submits hcaller hvisit)
  | close hclosing => exact hset rfl (.closes hclosing)
  | join => exact hsame (sameMonitors_afterJoin ..).queues_eq
  | acquire => exact hsame (sameMonitors_afterAcquire ..).queues_eq
  | drain => exact hsame (sameMonitors_afterDrain ..).queues_eq
  | record =>
    unfold Journal.record
    split <;> exact .leaves
  | mark =>
    unfold Journal.mark
    split <;> exact .leaves
  | hand | notify | abort | gone | arrive | await | complete | drop | report | shutDown
  | shutDownAgain | clientPanic | devicePanic => exact .leaves

/-- What a step does to a queue is a `Turn` of the queue. -/
theorem Tends.turn {m : Queue.Monitor Actor WriteId} (h : j.Tends t a m) :
    (j.queues.get t).Turn m := by
  cases h with
  | leaves => exact .unchanged
  | delivers hdeliver => exact .delivered hdeliver
  | pops _ hvisit => exact .visited hvisit
  | pushes hvisit => exact .visited hvisit
  | submits _ hvisit => exact .visited hvisit
  | closes => exact .closed Actor.closer

/-- The notifications of a close are owed until nobody sleeps who has to hear of it
(`Dismisses`). -/
theorem Run.dismisses_queue (hrun : Run c as j es) (s : Stage) : (j.queues.get s).Dismisses := by
  induction hrun with
  | start hstart =>
    obtain ⟨-, -, rfl, -⟩ := start_eq_ok hstart
    intro hclosed
    cases s <;> exact nomatch hclosed
  | step hrun hstep ih => exact ((change_of_step hrun.attended hstep).tends s).turn.dismisses ih

/-! ## What the shutdown owes -/

/-- Who comes to owe a notification, and which. -/
inductive Incurs (j : Journal) : Actor → Queue.Signal → Prop where
  /-- A shutdown has closed a queue. -/
  | closer {s : Stage} {sig : Queue.Signal} (hclosing : j.closing = .closing s) :
      Incurs j .closer sig
  /-- A worker has taken a write or passed one on. -/
  | worker {s : Stage} {sig : Queue.Signal} (hsig : sig = .item ∨ sig = .room) :
      Incurs j (.worker s) sig
  /-- A caller has brought its write to the first queue. -/
  | caller {k : Nat} {point : Submission} {left : List WriteId}
      {answers : List (Option JournalError)} {sig : Queue.Signal}
      (hcaller : j.callers[k]? = some (.submitter point left answers)) (hpoint : point ≠ .between)
      (hsig : sig = .item ∨ sig = .room) : Incurs j (.caller k) sig

/-- What is owed after a step was owed before or comes from the step: `Incurs` says what for. -/
theorem Change.owed (h : Change j a step) {x : Actor × Queue.Signal}
    (hx : x ∈ (step.1.queues.get t).owed) : x ∈ (j.queues.get t).owed ∨ j.Incurs x.1 x.2 := by
  -- A visit leaves at most an `item` or a `room` to be sent, by the visitor.
  have hvisited {b : Actor} {want : Queue.Want WriteId} {first : Bool}
      {m : Queue.Monitor Actor WriteId} {r : Option (Queue.Reply WriteId)}
      (hvisit : (j.queues.get t).Visit b want first m r)
      (hb : ∀ sig, sig = .item ∨ sig = .room → j.Incurs b sig) (hmem : x ∈ m.owed) :
      x ∈ (j.queues.get t).owed ∨ j.Incurs x.1 x.2 := by
    refine (hvisit.owed x hmem).imp_right fun ⟨hactor, hsignal⟩ => ?_
    rw [hactor]
    exact hb _ hsignal
  have htends := h.tends t
  generalize step.1.queues.get t = m at htends hx
  cases htends with
  | leaves => exact .inl hx
  | delivers hdeliver => exact .inl (Queue.Monitor.deliver_owed hdeliver hx)
  | pops _ hvisit => exact hvisited hvisit (fun _ => .worker) hx
  | pushes hvisit => exact hvisited hvisit (fun _ => .worker) hx
  | @submits k id left answers first m r hcaller hvisit =>
    refine hvisited hvisit (fun _ => .caller hcaller ?_) hx
    cases first <;> exact nofun
  | closes hclosing =>
    simp only [Queue.Monitor.close, Queue.Monitor.owe, List.mem_append, List.mem_singleton] at hx
    rcases hx with (hx | rfl) | rfl
    · exact .inl hx
    · exact .inr (.closer hclosing)
    · exact .inr (.closer hclosing)

/-- The shutdown itself owes a notification, or somebody owes one for the shutdown. -/
def IsClosers (x : Actor × Queue.Signal) : Prop :=
  x.1 = .closer ∨ x.2 = .noMoreItems ∨ x.2 = .noMoreRoom

/-- Only at `closing` a queue does the shutdown come to owe notifications of a close. -/
theorem Incurs.closing {x : Actor × Queue.Signal} (h : j.Incurs x.1 x.2) (hclosers : IsClosers x) :
    x.1 = .closer ∧ ∃ s, j.closing = .closing s := by
  obtain ⟨b, sig⟩ := x
  -- An actor of another kind owes notifications for one caller.
  have hone (hb : b ≠ .closer) (hsig : sig = .item ∨ sig = .room) : False := by
    rcases hclosers with heq | heq | heq
    · exact hb heq
    · rw [show sig = .noMoreItems from heq] at hsig
      exact hsig.elim nofun nofun
    · rw [show sig = .noMoreRoom from heq] at hsig
      exact hsig.elim nofun nofun
  cases h with
  | closer hclosing => exact ⟨rfl, _, hclosing⟩
  | worker hsig => exact (hone nofun hsig).elim
  | caller _ _ hsig => exact (hone nofun hsig).elim

/-- What a close leaves to be sent is owed by the shutdown, and nothing of it once the table is shut
down. -/
structure Settles (j : Journal) : Prop where
  closer : ∀ s, ∀ x ∈ (j.queues.get s).owed, IsClosers x → x.1 = .closer
  settled : j.closing.hasAborted = true → ∀ s, ∀ x ∈ (j.queues.get s).owed, x.1 ≠ .closer

/-- Only the shutdown itself shuts the table down, once it has nothing to `deliver?`. -/
theorem Change.hasAborted (h : Change j a step) (habort : step.1.closing.hasAborted = true) :
    j.closing.hasAborted = true ∨ (j.closing = .aborting ∧ j.deliver? .closer = none) := by
  have hother (ha : a ≠ .act .closer) (hdown : a ≠ .shutDown) :
      j.closing.hasAborted = true ∨ (j.closing = .aborting ∧ j.deliver? .closer = none) := by
    rw [(h.steady ha hdown).closing_eq] at habort
    exact .inl habort
  cases h with
  | deliver | shutDownAgain => exact .inl habort
  | @close s closing hclosing hnot hnext =>
    subst hnext
    exact absurd (habort.symm.trans (Closing.hasAborted_elim_closing s)) nofun
  | abort hclosing hsettled => exact .inr ⟨hclosing, hsettled⟩
  | gone hclosing =>
    rw [hclosing]
    exact .inl rfl
  | shutDown => exact nomatch habort
  | _ => exact hother nofun nofun

/-- Once the table is shut down it stays so: `hasAborted` is never taken back. -/
theorem Change.hasAborted_mono (h : Change j a step) (habort : j.closing.hasAborted = true) :
    step.1.closing.hasAborted = true := by
  by_cases hown : a = .act .closer ∨ a = .shutDown
  · cases h with
    | deliver | shutDownAgain => exact habort
    | close hclosing | abort hclosing | shutDown hclosing =>
      rw [hclosing] at habort
      exact nomatch habort
    | gone hclosing hnot hes hover hnext =>
      subst hnext
      exact Closing.hasAborted_elim_joining _
    | _ => exact nomatch hown
  · rw [not_or] at hown
    rw [(h.steady hown.1 hown.2).closing_eq]
    exact habort

/-- Any number of steps leave a table that is shut down so (`hasAborted`). -/
theorem Run.hasAborted_mono {as' : List Action} {es' : List Event} (hrun : Run c as j es)
    (habort : j.closing.hasAborted = true) (hmore : j.run? as' = some (j', es')) :
    j'.closing.hasAborted = true := by
  induction as' generalizing as j es es' with
  | nil =>
    obtain ⟨rfl, rfl⟩ := Prod.mk.inj (Option.some.inj hmore)
    exact habort
  | cons a as' ih =>
    obtain ⟨j₁, es₁, es₂, hstep, htail, rfl⟩ := run?_cons_some hmore
    have habort₁ := (change_of_step hrun.attended hstep).hasAborted_mono habort
    exact ih (hrun.step hstep) habort₁ htail

/-- A `Change` leaves it to the shutdown to send what a close left, and nothing of it once the table
is shut down. -/
theorem Change.settles (h : Change j a step) (hj : j.Settles) : step.1.Settles := by
  refine ⟨fun s x hx hclosers => ?_, fun habort s x hx hcloser => ?_⟩
  · rcases h.owed hx with hold | hnew
    · exact hj.closer s x hold hclosers
    · exact (hnew.closing hclosers).1
  · rcases (h.owed hx).imp_right (·.closing (.inl hcloser)) with hold | ⟨-, t, hclosing⟩
    · rcases h.hasAborted habort with hbefore | ⟨-, hsettled⟩
      · exact hj.settled hbefore s x hold hcloser
      · exact deliver?_eq_none_iff.mp hsettled s x hold hcloser
    · -- A close comes before the table is shut down.
      rcases h.hasAborted habort with hbefore | ⟨hbefore, -⟩
      · rw [hclosing] at hbefore
        exact nomatch hbefore
      · exact nomatch hclosing.symm.trans hbefore

/-- What a close leaves to be sent is owed by the `closer`, which sends it before it comes to the
table. -/
theorem Run.settles (hrun : Run c as j es) : j.Settles := by
  induction hrun with
  | start hstart =>
    obtain ⟨-, -, rfl, -⟩ := start_eq_ok hstart
    refine ⟨fun s => ?_, nofun⟩
    cases s <;> exact nofun
  | step hrun hstep ih => exact (change_of_step hrun.attended hstep).settles ih

/-! ## Nobody sleeps -/

/-- Nobody is `asleep` at a queue once a shutdown has come to the workers. -/
theorem Run.asleep_queue (hrun : Run c as j es) (habort : j.closing.hasAborted = true) (s : Stage) :
    (j.queues.get s).waiters.asleep = [] := by
  have hclosed : (j.queues.get s).queue.closed = true :=
    (hrun.orderly.closed s).trans (Closing.hasClosed_of_hasAborted habort s)
  rw [List.eq_nil_iff_forall_not_mem]
  intro x hx
  obtain ⟨k, hk⟩ := hrun.dismisses_queue s hclosed x hx
  -- A sleeper is owed the notification of the close, but the shutdown has sent all of them.
  have hclosers : IsClosers (k, x.2.dismissal) := by
    cases x.2
    · exact .inr (.inr rfl)
    · exact .inr (.inl rfl)
  exact hrun.settles.settled habort s _ hk (hrun.settles.closer s _ hk hclosers)

/-- At a table that is shut down only those sleep who wait for all writes (`Dismisses`). -/
theorem Run.dismisses_table (hrun : Run c as j es) : j.table.Dismisses := by
  induction hrun with
  | start hstart =>
    obtain ⟨-, -, rfl, -⟩ := start_eq_ok hstart
    exact nofun
  | step hrun hstep ih =>
    rcases (change_of_step hrun.attended hstep).turn with htable | ⟨b, y, hturn⟩
    · rw [htable]
      exact ih
    · exact hturn.dismisses ih

/-- Who is `asleep` at a table that is shut down waits for it to `drain`. -/
theorem Run.asleep_table (hrun : Run c as j es) (habort : j.closing.hasAborted = true) :
    ∀ x ∈ j.table.waiters.asleep, x.2 = .drain :=
  hrun.dismisses_table (hrun.orderly.shutDown.trans habort)

/-! ## Workers go on -/

/-- A worker that waits at a queue has been woken, so its `recheck` is possible. -/
private theorem Run.recheck_queue {b : Actor} {want : Queue.Want WriteId} (hrun : Run c as j es)
    (habort : j.closing.hasAborted = true) (hwant : j.queueWant? b = some (s, want)) :
    ((j.queues.get s).recheck b).isSome = true := by
  have hmem := ((hrun.attended.queues s).mem_iff b want).mpr hwant
  rw [Waiters.all, hrun.asleep_queue habort s, List.nil_append] at hmem
  rw [Queue.Monitor.recheck, Option.isSome_map]
  exact Waiters.wokenWant?_isSome hmem

/-- A worker that waits for its join has been woken, so its `recheck` is possible. -/
private theorem Run.recheck_table {b : Actor} {id : WriteId} (hrun : Run c as j es)
    (habort : j.closing.hasAborted = true) (hwant : j.tableWant? b = some (.join id s)) :
    (j.table.recheck b).isSome = true := by
  have hmem := (hrun.attended.table.mem_iff b _).mpr hwant
  rw [Table.Monitor.recheck, Option.isSome_map]
  rcases List.mem_append.mp hmem with hasleep | hwoken
  · exact nomatch hrun.asleep_table habort _ hasleep
  · exact Waiters.wokenWant?_isSome hwoken

/-- Only a worker with a `next` stage passes writes on. -/
theorem Run.next_of_pushing (hrun : Run c as j es) {id : WriteId}
    (hphase : (j.workers.get s).phase = .pushing id ∨ (j.workers.get s).phase = .awaitingRoom id) :
    ∃ t, s.next = some t := by
  have hsuits := hrun.pipeline.suited s
  have hawake : j.pipeline.workers.get s = .pushing id := by
    rcases hphase with hphase | hphase <;> rw [workers_pipeline, hphase] <;> rfl
  rw [hawake] at hsuits
  exact Option.ne_none_iff_exists'.mp hsuits

/-- A worker that has not come to its end can go on: its `step` is possible. -/
theorem Run.worker_unblocked (hrun : Run c as j es) (habort : j.closing.hasAborted = true)
    (halive : (j.workers.get s).phase.isOver = false) :
    (j.step (.act (.worker s))).isSome = true := by
  show (j.actorStep (.worker s)).isSome = true
  unfold actorStep
  split
  · rfl
  · show (j.workerStep s).isSome = true
    cases hphase : (j.workers.get s).phase with
    | popping | handing | notifying | marking => simp [workerStep, hphase]
    | issuing id left => cases left <;> simp [workerStep, hphase]
    -- The abort has woken all sleepers, so whoever waits is one of the woken and can look again.
    | awaitingItem =>
      have hwant : j.queueWant? (.worker s) = some (s, .pop) := by
        rw [queueWant?, hphase]
        rfl
      simpa [workerStep, hphase] using hrun.recheck_queue habort hwant
    | awaitingJoin id =>
      have hwant : j.tableWant? (.worker s) = some (.join id s) := by
        rw [tableWant?, hphase]
        rfl
      simpa [workerStep, hphase] using hrun.recheck_table habort hwant
    | pushing id =>
      obtain ⟨t, hnext⟩ := hrun.next_of_pushing (.inl hphase)
      simp [workerStep, hphase, hnext]
    | awaitingRoom id =>
      obtain ⟨t, hnext⟩ := hrun.next_of_pushing (.inr hphase)
      have hwant : j.queueWant? (.worker s) = some (t, .push id) := by
        rw [queueWant?, hphase, Phase.queueWant?, hnext]
        rfl
      simpa [workerStep, hphase, hnext] using hrun.recheck_queue habort hwant
    | stopped | crashed =>
      rw [hphase] at halive
      cases halive

end WriteAhead.Journal
