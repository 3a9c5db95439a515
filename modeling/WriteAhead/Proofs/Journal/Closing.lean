import WriteAhead.Proofs.Journal.Alert
import WriteAhead.Proofs.Journal.Tally
import WriteAhead.Proofs.Queue.Sleepers

/-!
# How far a shutdown has come

A shutdown closes the queues one after the other, shuts the table down and waits for the workers in
the same order. So the place that it has reached says which queues are closed, whether the table is
shut down and which workers are known to be gone (`Orderly`). It has the journal to itself: from its
beginning to its end no caller is inside, and whoever comes in later finds the table shut down.

## Key results

- `Change.worker_eq`: a worker that has come to its end does nothing more
- `Change.orderly`, `Run.orderly`: the flags of a journal are those of the place in its shutdown
- `Change.secluded`, `Run.secluded`: no call is inside while a journal closes
-/

namespace WriteAhead

namespace Closing

/-- Whether the queue of a stage has been closed. -/
def hasClosed : Closing → Stage → Bool
  | .open, _ => false
  | .closing s, t => t.index < s.index
  | .aborting, _ | .joining _, _ | .done, _ => true

/-- Whether the table has been shut down. -/
def hasAborted : Closing → Bool
  | .open | .closing _ | .aborting => false
  | .joining _ | .done => true

/-- Whether the worker of a stage has been found gone. -/
def hasJoined : Closing → Stage → Bool
  | .open, _ | .closing _, _ | .aborting, _ => false
  | .joining s, t => t.index < s.index
  | .done, _ => true

/-- With its queue closed, a stage joins those whose queues are (`hasClosed`). -/
theorem hasClosed_next (s t : Stage) :
    (s.next.elim aborting closing).hasClosed t =
      if t = s then true else (closing s).hasClosed t := by
  cases s <;> cases t <;> rfl

/-- With its worker gone, a stage joins those whose workers are (`hasJoined`). -/
theorem hasJoined_next (s t : Stage) :
    (s.next.elim done joining).hasJoined t = if t = s then true else (joining s).hasJoined t := by
  cases s <;> cases t <;> rfl

theorem hasAborted_elim_closing (s : Stage) :
    (s.next.elim aborting closing).hasAborted = false := by
  cases s <;> rfl

theorem hasAborted_elim_joining (s : Stage) : (s.next.elim done joining).hasAborted = true := by
  cases s <;> rfl

/-- All queues are closed (`hasClosed`) before the table is shut down (`hasAborted`). -/
theorem hasClosed_of_hasAborted {c : Closing} (h : c.hasAborted = true) (s : Stage) :
    c.hasClosed s = true := by
  cases c with
  | «open» | closing | aborting => exact nomatch h
  | joining | done => rfl

theorem ne_open_of_hasAborted {c : Closing} (h : c.hasAborted = true) : c ≠ .open := by
  rintro rfl
  exact nomatch h

end Closing

/-- A worker that has come to its end (`isOver`) has no write. -/
theorem Phase.held?_of_isOver {p : Phase} (h : p.isOver = true) : p.held? = none := by
  cases p with
  | stopped | crashed => rfl
  | _ => exact nomatch h

namespace Journal

variable {c : Config} {as : List Action} {j j' : Journal} {es : List Event} {a : Action}
  {s t : Stage} {step : Step}

/-! ## Workers that have come to their end -/

/-- After the answer of its queue only the worker itself is another: `afterPop` changes nothing
else. -/
theorem afterPop_eq (j : Journal) (s : Stage) (r : Option (Queue.Reply WriteId)) :
    ∃ w, (j.afterPop s r).1 = { j with workers := j.workers.set s w } := by
  cases r with
  | none => exact ⟨_, rfl⟩
  | some r => cases r <;> exact ⟨_, rfl⟩

/-- By `afterPush` only the worker itself becomes another. -/
theorem afterPush_eq (j : Journal) (s t : Stage) (id : WriteId) (first : Bool)
    (r : Option (Queue.Reply WriteId)) :
    ∃ w, (j.afterPush s t id first r).1 = { j with workers := j.workers.set s w } := by
  cases r with
  | none => exact ⟨_, rfl⟩
  | some r => cases r <;> exact ⟨_, rfl⟩

/-- By `afterJoin` only the worker itself becomes another. -/
theorem afterJoin_eq (j : Journal) (s : Stage) (id : WriteId) (r : Option Table.Reply) :
    ∃ w, (j.afterJoin s id r).1 = { j with workers := j.workers.set s w } := by
  cases r with
  | none => exact ⟨_, rfl⟩
  | some r => cases r <;> exact ⟨_, rfl⟩

/-- A submitter that looks for a slot (`afterAcquire`) moves no worker. -/
theorem workers_afterAcquire (j : Journal) (k : Nat) (id : WriteId) (left : List WriteId)
    (answers : List (Option JournalError)) (r : Option Table.Reply) :
    (j.afterAcquire k id left answers r).1.workers = j.workers := by
  cases r with
  | none => rfl
  | some r => cases r <;> rfl

/-- A submitter that looks for room (`afterSubmit`) moves no worker. -/
theorem workers_afterSubmit (j : Journal) (k : Nat) (id : WriteId) (left : List WriteId)
    (answers : List (Option JournalError)) (first : Bool) (r : Option (Queue.Reply WriteId)) :
    (j.afterSubmit k id left answers first r).1.workers = j.workers := by
  cases r with
  | none => rfl
  | some r => cases r <;> rfl

/-- A caller that waits for all writes (`afterDrain`) moves no worker. -/
theorem workers_afterDrain (j : Journal) (k : Nat) (r : Option Table.Reply) :
    (j.afterDrain k r).1.workers = j.workers := by
  cases r <;> rfl

/-- The worker that takes a step, if one does. -/
def Action.worker? : Action → Option Stage
  | .act (.worker s) | .devicePanic s => some s
  | .clientPanic => some .checkpoint
  | .act (.caller _) | .act .closer | .submit _ | .awaitAll | .complete _ | .drop _ | .report ..
  | .shutDown => none

/-- A worker that has come to its end (`isOver`), or whose step it is not, stays as it is, with its
counter. -/
theorem Change.worker_eq (h : Change j a step)
    (ht : (j.workers.get t).phase.isOver = true ∨ a.worker? ≠ some t) :
    step.1.workers.get t = j.workers.get t := by
  -- The worker that takes a step is alive and is the one that the action names.
  have hother {s : Stage} {phase : Phase} (hphase : (j.workers.get s).phase = phase)
      (halive : phase.isOver = false) (ha : a.worker? = some s) : t ≠ s := by
    rintro rfl
    rcases ht with hover | hne
    · rw [hphase, halive] at hover
      exact nomatch hover
    · exact hne ha
  cases h with
  | @pop s first m r hphase =>
    obtain ⟨w, hw⟩ := afterPop_eq (j.setQueue s m) s r
    have hne := hother hphase (by cases first <;> rfl) rfl
    rw [hw, PerStage.get_set, if_neg hne]
    rfl
  | @push s u id first m r _ hphase =>
    obtain ⟨w, hw⟩ := afterPush_eq (j.setQueue u m) s u id first r
    have hne := hother hphase (by cases first <;> rfl) rfl
    rw [hw, PerStage.get_set, if_neg hne]
    rfl
  | @join s id first m r hphase =>
    obtain ⟨w, hw⟩ := afterJoin_eq { j with table := m } s id r
    have hne := hother hphase (by cases first <;> rfl) rfl
    rw [hw, PerStage.get_set, if_neg hne]
  | record hphase =>
    have hne := hother hphase rfl rfl
    unfold Journal.record
    split <;> simp [worker_setPhase, hne]
  | mark hphase =>
    have hne := hother hphase rfl rfl
    unfold Journal.mark
    split <;> simp [worker_setPhase, hne]
  | hand hphase | devicePanic hphase =>
    have hne := hother hphase rfl rfl
    simp [Journal.hand, worker_setPhase, hne]
  | notify hphase | clientPanic hphase =>
    have hne := hother hphase rfl rfl
    simp [Journal.notify, worker_setPhase, hne]
  | acquire => rw [workers_afterAcquire]
  | submit => rw [workers_afterSubmit]; rfl
  | drain => rw [workers_afterDrain]
  | deliver | close | abort | gone | arrive | await | complete | drop | report | shutDown
  | shutDownAgain =>
    rfl

/-- Callers move on their own steps only, and only a call (`submit`, `awaitAll`) brings in
another. -/
theorem Change.callers_eq (h : Change j a step) (hact : ∀ k, a ≠ .act (.caller k))
    (hsubmit : ∀ ids, a ≠ .submit ids) (hawait : a ≠ .awaitAll) : step.1.callers = j.callers := by
  cases h with
  -- What follows from an answer changes the worker only.
  | @pop s first m r =>
    obtain ⟨w, hw⟩ := afterPop_eq (j.setQueue s m) s r
    rw [hw]
    rfl
  | @push s t id first m r =>
    obtain ⟨w, hw⟩ := afterPush_eq (j.setQueue t m) s t id first r
    rw [hw]
    rfl
  | @join s id first m r =>
    obtain ⟨w, hw⟩ := afterJoin_eq { j with table := m } s id r
    rw [hw]
  | record =>
    unfold Journal.record
    split <;> rfl
  | mark =>
    unfold Journal.mark
    split <;> rfl
  | acquire | submit | drain => exact absurd rfl (hact _)
  | arrive => exact absurd rfl (hsubmit _)
  | await => exact absurd rfl hawait
  | deliver | hand | notify | close | abort | gone | complete | drop | report | shutDown
  | shutDownAgain | clientPanic | devicePanic => rfl

/-! ## The flags of a journal -/

/-- Neither the place that a shutdown has reached nor a flag that it sets changes. -/
structure Steady (j j' : Journal) : Prop where
  closing_eq : j'.closing = j.closing
  closed_eq : ∀ s, (j'.queue s).closed = (j.queue s).closed
  isShutDown_eq : j'.table.table.isShutDown = j.table.table.isShutDown

theorem Steady.refl (j : Journal) : Steady j j := ⟨rfl, fun _ => rfl, rfl⟩

/-- A step that leaves the monitors (`SameMonitors`) leaves what a shutdown has set in them. -/
theorem Steady.congr {j₁ : Journal} (h : Steady j j₁) (hsame : j₁.SameMonitors j') :
    Steady j j' := by
  obtain ⟨hqueues, htable, hclosing⟩ := hsame
  refine ⟨hclosing.trans h.closing_eq, fun s => ?_, ?_⟩
  · rw [queue, hqueues]
    exact h.closed_eq s
  · rw [htable]
    exact h.isShutDown_eq

theorem steady_setQueue {m : Queue.Monitor Actor WriteId}
    (h : m.queue.closed = (j.queue s).closed) : Steady j (j.setQueue s m) :=
  ⟨rfl, queue_setQueue_eq Queue.closed h, rfl⟩

theorem steady_setTable {m : Table.Monitor Actor}
    (h : m.table.isShutDown = j.table.table.isShutDown) : Steady j { j with table := m } :=
  ⟨rfl, fun _ => rfl, h⟩

/-- A look for a slot leaves `isShutDown` as it was. -/
private theorem isShutDown_of_slot {k : Actor} {id : WriteId} {first : Bool}
    {m : Table.Monitor Actor} {r : Option Table.Reply}
    (h : j.table.Visit k (.slot id) first m r) :
    m.table.isShutDown = j.table.table.isShutDown := by
  rcases h.slot_cases with ⟨g, -, hacquire⟩ | ⟨e, -, htable⟩ | ⟨-, htable⟩
  · obtain ⟨s, -, -, -, hrep⟩ := Table.acquire_granted hacquire
    exact hrep.isShutDown_eq
  · rw [htable]
  · rw [htable]

/-- Only the shutdown itself gets further: all other steps leave what is `Steady`. -/
theorem Change.steady (h : Change j a step) (ha : a ≠ .act .closer) (hdown : a ≠ .shutDown) :
    Steady j step.1 := by
  -- A report leaves the flag of the table as it is.
  have hreport {id : WriteId} {op : Operation} {g : Option Generation} {m : Table.Monitor Actor}
      {v : Table.Verdict} (hreport : j.table.recordCompletion id op g = (m, v)) :
      m.table.isShutDown = j.table.table.isShutDown :=
    Table.recordCompletion_isShutDown (Table.Monitor.recordCompletion_table hreport)
  cases h with
  | deliver hdeliver =>
    apply steady_setQueue
    rw [Queue.Monitor.deliver_queue hdeliver]
    rfl
  | pop hphase hvisit =>
    exact (steady_setQueue hvisit.closed.1).congr (sameMonitors_afterPop ..)
  | push hnext hphase hvisit =>
    exact (steady_setQueue hvisit.closed.1).congr (sameMonitors_afterPush ..)
  | submit hcaller hvisit =>
    exact (steady_setQueue hvisit.closed.1).congr (sameMonitors_afterSubmit ..)
  | join hphase hvisit =>
    have htable := congrArg Table.isShutDown hvisit.join_cases.1
    exact (steady_setTable htable).congr (sameMonitors_afterJoin ..)
  | acquire hcaller hvisit =>
    exact (steady_setTable (isShutDown_of_slot hvisit)).congr (sameMonitors_afterAcquire ..)
  | drain hcaller hvisit =>
    have htable := congrArg Table.isShutDown hvisit.drain_cases.1
    exact (steady_setTable htable).congr (sameMonitors_afterDrain ..)
  | record hphase =>
    unfold Journal.record
    split
    · rename_i hissue
      obtain ⟨s, -, -, hrep⟩ := Table.recordIssue_ok (Table.Monitor.recordIssue_table hissue)
      exact (steady_setTable hrep.isShutDown_eq).congr ⟨rfl, rfl, rfl⟩
    · exact (Steady.refl j).congr ⟨rfl, rfl, rfl⟩
  | @mark s id hphase =>
    unfold Journal.mark
    split
    · rename_i hmark
      obtain ⟨s, -, hrep⟩ :=
        Table.markCheckpointDone_ok (Table.Monitor.markCheckpointDone_table hmark)
      exact (steady_setTable hrep.isShutDown_eq).congr ⟨rfl, rfl, rfl⟩
    · exact (Steady.refl j).congr ⟨rfl, rfl, rfl⟩
  | complete hmem => exact (steady_setTable (hreport rfl)).congr ⟨rfl, rfl, rfl⟩
  | report id op => exact steady_setTable (hreport rfl)
  | close | abort | gone => exact absurd rfl ha
  | shutDown | shutDownAgain => exact absurd rfl hdown
  | hand | notify | arrive | await | drop | clientPanic | devicePanic =>
    exact ⟨rfl, fun _ => rfl, rfl⟩

/-- Only a `shutDown` ends the time in which a journal is open. -/
theorem Change.closing_of_open (h : Change j a step) (hopen : j.closing = .open)
    (ha : a ≠ .shutDown) : step.1.closing = .open := by
  by_cases hcloser : a = .act .closer
  · subst hcloser
    cases h with
    | deliver => exact hopen
    | close hclosing | abort hclosing | gone hclosing => exact nomatch hopen.symm.trans hclosing
  · exact (h.steady hcloser ha).closing_eq.trans hopen

/-- The flags of a journal and its workers are as far as the shutdown says. -/
structure Orderly (j : Journal) : Prop where
  closed : ∀ s, (j.queue s).closed = j.closing.hasClosed s
  shutDown : j.table.table.isShutDown = j.closing.hasAborted
  joined : ∀ s, j.closing.hasJoined s = true → (j.workers.get s).phase.isOver = true

/-- A `Steady` step keeps a journal orderly, if no worker that is over comes back. -/
theorem Orderly.steady (h : j.Orderly) (hsteady : Steady j j')
    (hworkers : ∀ s, (j.workers.get s).phase.isOver = true → j'.workers.get s = j.workers.get s) :
    j'.Orderly := by
  obtain ⟨hclosing, hclosed, hdown⟩ := hsteady
  refine ⟨fun s => ?_, ?_, fun s hjoined => ?_⟩
  · rw [hclosed, hclosing, h.closed]
  · rw [hdown, hclosing, h.shutDown]
  · rw [hclosing] at hjoined
    have hover := h.joined s hjoined
    rw [hworkers s hover]
    exact hover

/-- A step of the shutdown sets the flag that belongs to it, so the journal stays `Orderly`. -/
theorem Change.orderly (h : Change j a step) (hj : j.Orderly) : step.1.Orderly := by
  have hworkers : ∀ s, (j.workers.get s).phase.isOver = true →
      step.1.workers.get s = j.workers.get s := fun s hover => h.worker_eq (.inl hover)
  -- Only the shutdown itself turns `closing`. All other steps are steady.
  have hother (ha : a ≠ .act .closer) (hdown : a ≠ .shutDown) : step.1.Orderly :=
    hj.steady (h.steady ha hdown) hworkers
  cases h with
  | deliver hdeliver =>
    refine hj.steady (steady_setQueue ?_) hworkers
    rw [Queue.Monitor.deliver_queue hdeliver]
    rfl
  | @close s closing hclosing hnot hnext =>
    subst hnext
    constructor
    case closed =>
      intro t
      show ((j.setQueue s ((j.queues.get s).close .closer)).queue t).closed = _
      rw [queue_setQueue, Closing.hasClosed_next]
      split
      · rfl
      · rw [hj.closed, hclosing]
    case shutDown =>
      show j.table.table.isShutDown = _
      rw [hj.shutDown, hclosing, Closing.hasAborted_elim_closing]
      rfl
    case joined =>
      intro t hjoined
      cases s <;> exact nomatch hjoined
  | abort hclosing =>
    constructor
    case closed =>
      intro t
      show (j.queue t).closed = true
      rw [hj.closed, hclosing]
      rfl
    case shutDown => rfl
    case joined => exact nofun
  | @gone s closing es hclosing hnot hes hover hnext =>
    subst hnext
    have hdown := Closing.hasAborted_elim_joining s
    constructor
    case closed =>
      intro t
      show (j.queue t).closed = _
      rw [hj.closed, hclosing, Closing.hasClosed_of_hasAborted hdown]
      rfl
    case shutDown =>
      show j.table.table.isShutDown = _
      rw [hj.shutDown, hclosing, hdown]
      rfl
    case joined =>
      intro t hjoined
      show (j.workers.get t).phase.isOver = true
      rw [Closing.hasJoined_next] at hjoined
      split at hjoined
      · rename_i ht
        rwa [ht]
      · exact hj.joined t (by rw [hclosing]; exact hjoined)
  | shutDown hopen =>
    constructor
    case closed =>
      intro t
      show (j.queue t).closed = _
      rw [hj.closed, hopen]
      cases t <;> rfl
    case shutDown =>
      show j.table.table.isShutDown = _
      rw [hj.shutDown, hopen]
      rfl
    case joined => exact nofun
  | shutDownAgain => exact hj
  | _ => exact hother nofun nofun

/-- The flags of a journal are those of the place in its shutdown, `closing`, along every run. -/
theorem Run.orderly (h : Run c as j es) : j.Orderly := by
  induction h with
  | start hstart =>
    obtain ⟨-, -, rfl, -⟩ := start_eq_ok hstart
    refine ⟨fun s => ?_, rfl, nofun⟩
    cases s <;> rfl
  | step hrun hstep ih => exact (change_of_step hrun.attended hstep).orderly ih

/-! ## Callers -/

/-- While a journal closes, every call has returned; later each request is between two writes. -/
structure Secluded (j : Journal) : Prop where
  between : j.closing ≠ .open → ∀ (k : Nat) (point : Submission) (left : List WriteId)
    (answers : List (Option JournalError)),
    j.callers[k]? = some (.submitter point left answers) → point = .between
  away : j.closing ≠ .open → j.closing ≠ .done → ∀ (k : Nat) (caller : Caller),
    j.callers[k]? = some caller → caller.isOver = true

/-- Where every call has returned (`isOver`), no request is at a write. -/
theorem secluded_of_over
    (h : ∀ (k : Nat) (caller : Caller), j.callers[k]? = some caller → caller.isOver = true) :
    j.Secluded := by
  refine ⟨fun _ k point left answers hcaller => ?_, fun _ _ => h⟩
  have hover := h k _ hcaller
  simp only [Caller.isOver, Bool.and_eq_true, beq_iff_eq] at hover
  exact hover.1

/-- In a journal in which nobody is (`isCalled`), every call has returned. -/
theorem hasReturned_of_isCalled_eq_false (h : j.isCalled = false) {k : Nat}
    (hlt : k < j.callers.length) : j.hasReturned k = true := by
  rw [isCalled, Bool.not_eq_false', List.all_eq_true] at h
  exact h k (List.mem_range.mpr hlt)

/-- The callers of a journal in which nobody is (`isCalled`) are all over. -/
theorem isOver_of_isCalled_eq_false (h : j.isCalled = false) {k : Nat} {caller : Caller}
    (hcaller : j.callers[k]? = some caller) : caller.isOver = true := by
  have hlt : k < j.callers.length := (List.getElem?_eq_some_iff.mp hcaller).1
  have hreturned := hasReturned_of_isCalled_eq_false h hlt
  rw [hasReturned, hcaller, Bool.and_eq_true] at hreturned
  exact hreturned.1

/-- After a shutdown a caller may be replaced by one that is `between` two requests. -/
private theorem Secluded.setCaller {caller : Caller} (h : j.Secluded) (hdone : j.closing = .done)
    (hbetween : ∀ point left answers, caller = .submitter point left answers → point = .between)
    (k : Nat) : (j.setCaller k caller).Secluded := by
  refine ⟨fun hopen i point left answers hcaller => ?_, fun _ hbusy => absurd hdone hbusy⟩
  simp only [Journal.setCaller, List.getElem?_set] at hcaller
  split at hcaller
  · split at hcaller
    · exact hbetween point left answers (Option.some.inj hcaller)
    · exact nomatch hcaller
  · exact h.between hopen i point left answers hcaller

/-- A caller that comes in is `between` two requests, so it is at no write. -/
private theorem Secluded.call {caller : Caller} (h : j.Secluded) (hadmits : j.admitsCalls = true)
    (hbetween : ∀ point left answers, caller = .submitter point left answers → point = .between) :
    (j.call caller).Secluded := by
  have hadmits : j.closing = .open ∨ j.closing = .done := by simpa [admitsCalls] using hadmits
  refine ⟨fun hopen k point left answers hcaller => ?_, fun hopen hbusy => ?_⟩
  · -- The new caller is the last.
    simp only [Journal.call, List.getElem?_append, List.getElem?_singleton] at hcaller
    split at hcaller
    · exact h.between hopen k point left answers hcaller
    · split at hcaller
      · exact hbetween point left answers (Option.some.inj hcaller)
      · cases hcaller
  · exact absurd hadmits (not_or.mpr ⟨hopen, hbusy⟩)

/-- A step keeps callers out of a journal that closes (`Secluded`). -/
theorem Change.secluded (h : Change j a step) (ho : j.Orderly) (hj : j.Secluded) :
    step.1.Secluded := by
  have hsame (hcallers : step.1.callers = j.callers) (hclosing : step.1.closing = j.closing) :
      step.1.Secluded := by
    constructor
    · rw [hcallers, hclosing]
      exact hj.between
    · rw [hcallers, hclosing]
      exact hj.away
  -- Who takes a step of a call is inside, so the journal is open or the shutdown is over.
  have hdone {k : Nat} {caller : Caller} (hcaller : j.callers[k]? = some caller)
      (hinside : caller.isOver = false) (hopen : j.closing ≠ .open) : j.closing = .done := by
    by_contra hne
    rw [hj.away hopen hne k caller hcaller] at hinside
    exact nomatch hinside
  have hvacuous (hopen : step.1.closing = .open) : step.1.Secluded :=
    ⟨fun hne => absurd hopen hne, fun hne => absurd hopen hne⟩
  have hother (hact : ∀ k, a ≠ .act (.caller k)) (hsubmit : ∀ ids, a ≠ .submit ids)
      (hawait : a ≠ .awaitAll) (hcloser : a ≠ .act .closer) (hdown : a ≠ .shutDown) :
      step.1.Secluded :=
    hsame (h.callers_eq hact hsubmit hawait) (h.steady hcloser hdown).closing_eq
  cases h with
  | deliver | shutDownAgain => exact hsame rfl rfl
  | @acquire k id left answers first m r hcaller hvisit =>
    have hclosing :=
      (sameMonitors_afterAcquire { j with table := m } k id left answers r).closing_eq
    by_cases hopen : j.closing = .open
    · exact hvacuous (hclosing.trans hopen)
    · -- The shutdown is over, so the request is refused.
      have hover : j.closing = .done := hdone hcaller (by cases first <;> rfl) hopen
      have hdown : j.table.table.isShutDown = true := by rw [ho.shutDown, hover]; rfl
      obtain ⟨e, rfl, -⟩ := hvisit.slot_of_isShutDown hdown
      have htable : Secluded { j with table := m } := ⟨hj.between, hj.away⟩
      apply htable.setCaller hover
      rintro point left answers ⟨⟩
      rfl
  | @submit k id left answers first m r hcaller hvisit =>
    have hclosing :=
      (sameMonitors_afterSubmit (j.setQueue .metadata m) k id left answers first r).closing_eq
    by_cases hopen : j.closing = .open
    · exact hvacuous (hclosing.trans hopen)
    · have hpoint := hj.between hopen k _ left answers hcaller
      cases first <;> exact nomatch hpoint
  | @drain k first m r hcaller hvisit =>
    have hclosing := (sameMonitors_afterDrain { j with table := m } k r).closing_eq
    by_cases hopen : j.closing = .open
    · exact hvacuous (hclosing.trans hopen)
    · have hover : j.closing = .done := hdone hcaller (by cases first <;> rfl) hopen
      have htable : Secluded { j with table := m } := ⟨hj.between, hj.away⟩
      have hset (point : Drain) :
          ({ j with table := m }.setCaller k (.drainer point)).Secluded := by
        apply htable.setCaller hover
        rintro _ _ _ ⟨⟩
      cases r <;> exact hset _
  | @close s closing hclosing =>
    have hopen : j.closing ≠ .open := by rw [hclosing]; exact nofun
    have hbusy : j.closing ≠ .done := by rw [hclosing]; exact nofun
    exact secluded_of_over (hj.away hopen hbusy)
  | abort hclosing =>
    have hopen : j.closing ≠ .open := by rw [hclosing]; exact nofun
    have hbusy : j.closing ≠ .done := by rw [hclosing]; exact nofun
    exact secluded_of_over (hj.away hopen hbusy)
  | @gone s closing es hclosing =>
    have hopen : j.closing ≠ .open := by rw [hclosing]; exact nofun
    have hbusy : j.closing ≠ .done := by rw [hclosing]; exact nofun
    exact secluded_of_over (hj.away hopen hbusy)
  | shutDown hopen hcalled =>
    exact secluded_of_over fun k caller hcaller => isOver_of_isCalled_eq_false hcalled hcaller
  | arrive hadmits =>
    apply hj.call hadmits
    rintro _ _ _ ⟨⟩
    rfl
  | await hadmits =>
    apply hj.call hadmits
    rintro _ _ _ ⟨⟩
  | _ => exact hother nofun nofun nofun nofun nofun

/-- While a journal closes, and after it has closed, no request is at a write: `shutDown` waits
until nobody is inside. -/
theorem Run.secluded (h : Run c as j es) : j.Secluded := by
  induction h with
  | start hstart =>
    obtain ⟨-, -, rfl, -⟩ := start_eq_ok hstart
    exact ⟨nofun, nofun⟩
  | step hrun hstep ih => exact (change_of_step hrun.attended hstep).secluded hrun.orderly ih

end Journal

end WriteAhead
