import WriteAhead.Proofs.Batch.Standing
import WriteAhead.Proofs.Device.Unheld

/-!
# A batch does not stall

A batch that is not at its end can go on, or its timer has to be waited for. Else no thread is
inside the device and nothing is on its timer, so all tokens have been given back. Then no worker
and no caller can go on only if the journal is at rest, and there every call has returned. So the
thread of the batch can go on. Once it has begun the shutdown, that goes on, or a worker that it
waits for.

## Key results

- `Run.unheld`: nothing is parked in the device of a batch
- `Run.settled`: a caller other than that of the batch's own call owes nothing
- `Run.unblocked`: a batch can go on until it is at its end
-/

namespace WriteAhead

/-! ## Callers that are over -/

/-- A caller whose calls are over (`isOver`) and who owes no notification can do nothing more. -/
theorem Journal.step_caller_of_settled {j : Journal} {k : Nat}
    (hsettled : j.deliver? (.caller k) = none)
    (hover : ∀ caller, j.callers[k]? = some caller → caller.isOver = true) :
    j.step (.act (.caller k)) = none := by
  rw [step, actorStep, hsettled]
  simp only [callerStep]
  cases hcaller : j.callers[k]? with
  | none => rfl
  | some caller =>
    have hdone := hover caller hcaller
    cases caller with
    | submitter point left answers =>
      cases point with
      | between => cases left with
        | nil => rfl
        | cons id left => cases hdone
      | _ => cases hdone
    | drainer point =>
      cases point with
      | returned => rfl
      | _ => cases hdone

/-! ## The device -/

namespace Simulation

variable {setup : Setup} {acts : List Action} {s : Simulation} {es : List Event}

/-- The device takes what is handed over and parks nothing at once, so it is `Unheld` still. -/
private theorem unheld_accept {d : Device} (h : d.Unheld) (es : List WriteAhead.Event) :
    (accept d es).Unheld := by
  rw [accept]
  induction es.filterMap handed? generalizing d with
  | nil => exact h
  | cons x xs ih => exact ih (h.issue _ _)

/-- As long as no operation is put on hold, nothing is parked (`Unheld`). -/
theorem Run.unheld (h : Run setup acts s es) (hholds : setup.holds = [])
    (hacts : ∀ op id, .hold op id ∉ acts) : s.device.Unheld := by
  induction h with
  | start =>
    rw [hholds]
    exact Device.unheld_create ..
  | @step acts s s' es es' a hrun hstep ih =>
    have hd := ih fun op id hmem => hacts op id (List.mem_append_left _ hmem)
    cases a with
    | journal b =>
      obtain ⟨-, j', es₀, -, heq⟩ := step_journal_eq_some hstep
      obtain ⟨rfl, -⟩ := Prod.mk.inj heq
      show (if s.wired then accept s.device es₀ else s.device).Unheld
      split
      · exact unheld_accept hd es₀
      · exact hd
    | device th =>
      obtain ⟨⟨d', notices, given?⟩, hdevice, heq⟩ := Option.map_eq_some_iff.mp hstep
      have hnext := hd.step hdevice
      cases given? with
      | none =>
        -- A token that gets lost concerns the journal only.
        cases hlosing : s.device.losing? s.now th with
        | none =>
          rw [hlosing] at heq
          obtain ⟨rfl, -⟩ := Prod.mk.inj heq
          exact hnext
        | some t =>
          rw [hlosing] at heq
          obtain ⟨rfl, -⟩ := Prod.mk.inj heq
          exact hnext
      | some t =>
        obtain ⟨rfl, -⟩ := Prod.mk.inj heq
        exact hnext
    | fire =>
      obtain ⟨d', hfire, heq⟩ := Option.map_eq_some_iff.mp hstep
      obtain ⟨rfl, -⟩ := Prod.mk.inj heq
      exact hd.fire hfire
    | hold op id => exact absurd (List.mem_append_right _ List.mem_cons_self) (hacts op id)
    | release n =>
      obtain ⟨-, heq⟩ := Option.ite_none_right_eq_some.mp hstep
      obtain ⟨rfl, -⟩ := Prod.mk.inj (Option.some.inj heq)
      exact hd.release _
    | issue n t =>
      obtain ⟨-, heq⟩ := Option.ite_none_right_eq_some.mp hstep
      obtain ⟨rfl, -⟩ := Prod.mk.inj (Option.some.inj heq)
      exact hd.issue _ t
    | pass instant =>
      obtain ⟨-, heq⟩ := Option.ite_none_right_eq_some.mp hstep
      obtain ⟨rfl, -⟩ := Prod.mk.inj (Option.some.inj heq)
      exact hd

end Simulation

namespace Batch

variable {p : Plan} {as : List Action} {a : Action} {b b' : Batch} {log log' : List Event} {k : Nat}

/-- Nothing is parked in the device of a batch (`Unheld`), since a plan holds no operation back. -/
theorem Run.unheld (h : Run p as b log) : b.simulation.device.Unheld := by
  obtain ⟨acts, hsimulation, hordinary⟩ := h.simulation
  exact hsimulation.unheld rfl fun op id hmem => hordinary _ hmem

/-! ## The callers -/

/-- Of the callers only that of the batch's own `call?` has something to do. -/
theorem Run.isOver (h : Run p as b log) (hk : b.call? ≠ some k) {caller : Caller}
    (hcaller : b.simulation.journal.callers[k]? = some caller) : caller.isOver = true := by
  have hstands := h.stands
  generalize hpoint : b.point = point at hstands
  -- `Stands` says which callers there are at each point: at most the last one is still inside.
  cases hstands with
  | requesting _ _ hcalled | answered _ _ hcalled =>
    rcases hcalled.caller_cases hcaller with rfl | ⟨-, hlast⟩
    · rfl
    · exact nomatch hlast
  | awaiting _ _ hcalled =>
    rcases hcalled.caller_cases hcaller with rfl | ⟨rfl, -⟩
    · rfl
    · exact absurd (by rw [call?, hpoint]) hk
  | draining _ hcalled =>
    rcases hcalled.caller_cases hcaller with rfl | ⟨rfl, -⟩
    · rfl
    · exact absurd (by rw [call?, hpoint, h.plan_eq]) hk
  | closing h | ended h =>
    rcases h.called.caller_cases hcaller with rfl | ⟨-, hlast⟩
    · rfl
    · obtain rfl := Option.some.inj hlast
      rfl

/-- A call has answered (`answer?`) only when its caller owes nothing. -/
theorem settled_of_answer? {answer : Option JournalError} (h : b.answer? = some answer)
    (hcall : b.call? = some k) : b.simulation.journal.deliver? (.caller k) = none := by
  obtain ⟨k', hcall', h⟩ := Option.bind_eq_some_iff.mp h
  obtain rfl := Option.some.inj (hcall.symm.trans hcall')
  obtain ⟨hreturned, -⟩ := Option.ite_none_right_eq_some.mp h
  rw [Journal.hasReturned, Bool.and_eq_true, Bool.not_eq_true'] at hreturned
  exact Journal.isOwing_eq_false_iff.mp hreturned.2

/-- Who has nothing to `deliver?` has nothing where the queues are the same. -/
private theorem deliver?_congr {j j' : Journal} {d : Actor} (hqueues : j'.queues = j.queues)
    (h : j.deliver? d = none) : j'.deliver? d = none := by
  rw [Journal.deliver?_eq_none_iff] at h ⊢
  rw [hqueues]
  exact h

/-- Of the callers only that of the batch's own `call?` owes something. -/
theorem Run.settled (h : Run p as b log) (hk : b.call? ≠ some k) :
    b.simulation.journal.deliver? (.caller k) = none := by
  induction h with
  | start hstart =>
    obtain ⟨j, es, hjournal, rfl, -⟩ := start_eq_ok hstart
    obtain ⟨-, -, rfl, -⟩ := Journal.start_eq_ok hjournal
    rw [Journal.deliver?_eq_none_iff]
    intro s x hx
    cases s <;> cases hx
  | @step as b b' log log' a hrun hstep ih =>
    -- The own call is another after a step only if it has begun or returned.
    have hreturned {answer : Option JournalError} {n : Nat} (hanswer : b.answer? = some answer)
        (hcall : b.call? = some n) : b.simulation.journal.deliver? (.caller k) = none := by
      by_cases heq : n = k
      · exact settled_of_answer? hanswer (heq ▸ hcall)
      · exact ih (by simpa [hcall] using heq)
    have hadvance := hrun.advance hstep
    clear hstep
    cases hadvance with
    | world hy hstep =>
      rcases hrun.beside hy hstep with ⟨hsame, -⟩ | ⟨x, -, hstep⟩
      · exact deliver?_congr (congrArg _ hsame) (ih hk)
      · obtain ⟨-, acts, hjournal, -⟩ := hrun.journal
        exact (Journal.change_of_step hjournal.attended hstep).deliver?_eq_none
          (fun _ hcaller => hrun.isOver hk hcaller) (ih hk)
    | request hpoint | await hpoint =>
      exact deliver?_congr (j := b.simulation.journal) rfl (ih (by simp [call?, hpoint]))
    | @answered i hpoint hanswer => exact hreturned hanswer (n := i) (by rw [call?, hpoint])
    | drained hpoint hanswer =>
      exact deliver?_congr (j := b.simulation.journal) rfl
        (hreturned hanswer (n := b.plan.writes) (by rw [call?, hpoint]))
    | done hpoint => exact ih (by simp [call?, hpoint])

/-! ## Where nobody can go on -/

/-- Nobody in a batch can go on. -/
structure Stuck (b : Batch) : Prop where
  calls : b.simulation.device.calls = []
  workers : ∀ s, b.simulation.journal.step (.act (.worker s)) = none
  caller : ∀ k, b.call? = some k → b.simulation.journal.step (.act (.caller k)) = none
  own : b.ownStep = none
  closer : b.simulation.journal.step (.act .closer) = none
  fire : b.simulation.device.fire b.simulation.now = none

/-- Where none of the `moves` is possible, nobody can go on (`Stuck`). -/
theorem stuck_of_moves (h : ∀ a ∈ b.moves, b.step a = none) : Stuck b := by
  have hworld {y : Simulation.Action} (hnone : b.world y = none) : b.simulation.step y = none :=
    Option.map_eq_none_iff.mp hnone
  have hcalls : b.simulation.device.calls = [] := by
    refine List.eq_nil_iff_forall_not_mem.mpr fun x hx => ?_
    have hnone := hworld (h (.device x.1) (by
      simp only [moves, List.append_assoc]
      exact List.mem_append_left _ (List.mem_map_of_mem hx)))
    have hsome := Device.step_isSome hx b.simulation.now
    rw [Option.map_eq_none_iff.mp hnone] at hsome
    exact nomatch hsome
  -- With no thread inside the device, what the journal allows can happen.
  have hact (d : Actor) (hmem : .act d ∈ b.moves) : b.simulation.journal.step (.act d) = none := by
    have hadmits : b.simulation.admits (.act d) = true := by
      cases d with
      | worker s => simp [Simulation.admits, Device.call?, hcalls]
      | caller | closer => rfl
    have hnone := hworld (h _ hmem)
    rw [Simulation.step, if_pos hadmits] at hnone
    exact Option.map_eq_none_iff.mp hnone
  refine ⟨hcalls, fun s => hact _ ?_, fun k hk => hact _ ?_, h .own ?_, hact _ ?_, ?_⟩
  · simp [moves, Stage.mem_all]
  · simp [moves, hk]
  · simp [moves]
  · simp [moves]
  · exact Option.map_eq_none_iff.mp (hworld (h .fire (by simp [moves])))

namespace Stuck

/-- Where nobody can go on (`Stuck`) and the timer does not wait, every token has been given
back. -/
private theorem outstanding_eq_nil (hstuck : b.Stuck) (h : Run p as b log)
    (hwait : b.simulation.nextInstant? = none) : b.simulation.journal.outstanding = [] := by
  have htokens := h.unheld.tokens_eq_nil hstuck.calls hstuck.fire fun t ht => by
    have hnot := Option.filter_eq_none_iff.mp hwait t ht
    simpa using hnot
  have hperm := h.journal.1.tokens
  rw [htokens] at hperm
  exact hperm.symm.eq_nil

/-- Where nobody can go on and the timer does not wait, the journal is at rest
(`Journal.AtRest`). -/
private theorem atRest (hstuck : b.Stuck) (h : Run p as b log)
    (hwait : b.simulation.nextInstant? = none) : b.simulation.journal.AtRest := by
  refine ⟨hstuck.workers, fun k => ?_, hstuck.outstanding_eq_nil h hwait⟩
  by_cases hk : b.call? = some k
  · exact hstuck.caller k hk
  · exact Journal.step_caller_of_settled (h.settled hk) fun _ => h.isOver hk

/-- There every call has returned if the journal is open, so `isCalled` is false. -/
private theorem isCalled_eq_false (hstuck : b.Stuck) (h : Run p as b log)
    (hwait : b.simulation.nextInstant? = none) (hopen : b.simulation.journal.closing = .open) :
    b.simulation.journal.isCalled = false := by
  obtain ⟨-, acts, hjournal, hmishap, hreports⟩ := h.journal
  have hkeeps := hjournal.pipeline.keeps hopen
    (fun x hx => Journal.Action.isPanic_of_isMishap (hmishap x hx)) hreports
  exact (hstuck.atRest h hwait).isCalled_eq_false hjournal hopen hkeeps fun t hmem =>
    nomatch hmishap _ (hjournal.drop_of_dropped hmem)

/-- There the batch's own call has its `answer?` if the journal is open. -/
private theorem answer?_isSome (hstuck : b.Stuck) (h : Run p as b log)
    (hwait : b.simulation.nextInstant? = none) (hopen : b.simulation.journal.closing = .open)
    (hcall : b.call? = some k) {caller : Caller}
    (hcaller : b.simulation.journal.callers[k]? = some caller) :
    ∃ answer, b.answer? = some answer := by
  have hlt := (List.getElem?_eq_some_iff.mp hcaller).1
  have hreturned :=
    Journal.hasReturned_of_isCalled_eq_false (hstuck.isCalled_eq_false h hwait hopen) hlt
  rw [answer?, hcall, Option.bind_some]
  simp only [hreturned, if_true, hcaller, Option.map_some]
  exact ⟨_, rfl⟩

/-- There the batch is not at `awaitingAnswer`, since that request would have answered. -/
private theorem not_requesting (hstuck : b.Stuck) (h : Run p as b log)
    (hwait : b.simulation.nextInstant? = none) (hopen : b.simulation.journal.closing = .open)
    {i : Nat} (hpoint : b.point = .awaitingAnswer i) {caller : Caller}
    (hcaller : b.simulation.journal.callers[i]? = some caller) : False := by
  have hstands := h.stands
  rw [hpoint] at hstands
  obtain ⟨answer, hanswer⟩ :=
    hstuck.answer?_isSome h hwait hopen (k := i) (by rw [call?, hpoint]) hcaller
  obtain ⟨rfl, -⟩ := hstands.of_answer hpoint hanswer
  have hown := hstuck.own
  simp [ownStep, hpoint, hanswer] at hown

/-- A batch that is `Stuck` and whose timer does not wait has `ended`. -/
theorem point_eq (hstuck : b.Stuck) (h : Run p as b log)
    (hwait : b.simulation.nextInstant? = none) : b.point = .ended none := by
  have hstands := h.stands
  have hown := hstuck.own
  obtain ⟨-, acts, hjournal, -⟩ := h.journal
  generalize hpoint : b.point = point at hstands
  cases hstands with
  | requesting hle hopen hcalled =>
    have hadmits : b.simulation.journal.admitsCalls = true := by simp [Journal.admitsCalls, hopen]
    rw [ownStep, hpoint] at hown
    dsimp only at hown
    split at hown
    · rw [enter_eq (.submit _), Journal.step, if_pos hadmits] at hown
      cases hown
    · rw [enter_eq .awaitAll, Journal.step, if_pos hadmits] at hown
      cases hown
  | awaiting hlt hopen hcalled =>
    exact (hstuck.not_requesting h hwait hopen hpoint hcalled.getElem?_last).elim
  | answered hlt hopen hcalled =>
    have hcaller := hcalled.getElem?_served (Nat.lt_succ_self _)
    exact (hstuck.not_requesting h hwait hopen hpoint hcaller).elim
  | draining hopen hcalled =>
    have hcalled' := hstuck.isCalled_eq_false h hwait hopen
    obtain ⟨answer, hanswer⟩ := hstuck.answer?_isSome h hwait hopen (k := p.writes)
      (by rw [call?, hpoint, h.plan_eq]) hcalled.getElem?_last
    rw [ownStep, hpoint] at hown
    simp [hanswer, enter_eq .shutDown, Journal.step, hcalled', hopen] at hown
  | closing hclosing =>
    by_cases hdone : b.simulation.journal.closing = .done
    · rw [ownStep, hpoint] at hown
      simp [Journal.isShutDown, hdone] at hown
    · -- The shutdown can go on, or a worker that it waits for.
      rcases Journal.closer_unblocked hclosing.begun hdone with hsome | ⟨s, hjoining, halive⟩
      · rw [hstuck.closer] at hsome
        cases hsome
      · have habort : b.simulation.journal.closing.hasAborted = true := by rw [hjoining]; rfl
        have hsome := hjournal.worker_unblocked habort halive
        rw [hstuck.workers] at hsome
        cases hsome
  | ended => rfl

end Stuck

/-- A batch that has not `ended` can go on, unless its timer has to be waited for
(`nextInstant?`). -/
theorem Run.unblocked (h : Run p as b log) (hbusy : b.point ≠ .ended none)
    (hwait : b.simulation.nextInstant? = none) : ∃ a ∈ b.moves, (b.step a).isSome = true := by
  by_contra hnone
  refine hbusy ((stuck_of_moves fun a ha => ?_).point_eq h hwait)
  exact Option.not_isSome_iff_eq_none.mp fun hsome => hnone ⟨a, ha, hsome⟩

end Batch

end WriteAhead
