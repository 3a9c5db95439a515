import WriteAhead.Proofs.Batch.Run
import WriteAhead.Proofs.Journal.Calls
import WriteAhead.Proofs.Journal.Shutdown

/-!
# Where a batch stands

The thread of a batch has one call in the journal at a time. So at each of its points the callers
are those whose writes were accepted and at most one that has not returned, and the writes that were
accepted are the first of the plan (`Called`). `Stands` says what else holds at each point. No
request is refused, since the journal is open and every id has a slot, and when all writes are
drained nothing is in flight: then the client has been told of every write, and each stage has
advanced all of them.

## Key results

- `Turn.advance`: what a step comes to where a batch stands as its point says
- `Run.stands`: where a batch stands at each of its points
- `Run.processed_eq`: the sums of the stages
- `Run.notified_isPrefix`: the client is told of the writes of the plan in their order
-/

namespace WriteAhead

/-- The ids of the first writes of a plan. -/
def Plan.ids (p : Plan) (n : Nat) : List WriteId := (List.range n).map p.idOf

theorem Plan.ids_succ (p : Plan) (n : Nat) : p.ids (n + 1) = p.ids n ++ [p.idOf n] := by
  simp [ids, List.range_succ]

theorem Plan.length_ids (p : Plan) (n : Nat) : (p.ids n).length = n := by simp [ids]

theorem Plan.ids_prefix (p : Plan) {m n : Nat} (h : m ≤ n) : p.ids m <+: p.ids n := by
  obtain ⟨k, rfl⟩ := Nat.exists_eq_add_of_le h
  rw [ids, ids, List.range_add, List.map_append]
  exact List.prefix_append ..

/-- Whose calls have returned has no write `ahead`. -/
theorem Caller.ahead_eq_nil_of_isOver {c : Caller} (h : c.isOver = true) : c.ahead = [] := by
  cases c with
  | submitter point left answers =>
    obtain ⟨hpoint, hleft⟩ := Bool.and_eq_true_iff.mp h
    obtain rfl := eq_of_beq hpoint
    exact List.isEmpty_iff.mp hleft
  | drainer => rfl

namespace Batch

variable {p : Plan} {c : Config} {acts : List Journal.Action} {x : Journal.Action} {j j' : Journal}
  {es es' : List WriteAhead.Event} {n k : Nat} {last? : Option Caller} {point : Point}

/-! ## The callers -/

/-- A caller whose only write was accepted. -/
def served : Caller := .submitter .between [] [none]

/-- The first `n` writes of a plan were accepted, and besides their callers there is at most one,
which came last. -/
structure Called (p : Plan) (n : Nat) (last? : Option Caller) (j : Journal)
    (es : List WriteAhead.Event) : Prop where
  callers : j.callers = List.replicate n served ++ last?.toList
  accepted : es.filterMap WriteAhead.Event.accepted? = p.ids n

namespace Called

/-- A caller is `served`, that of an accepted write, or the last. -/
theorem caller_cases (h : Called p n last? j es) {caller : Caller}
    (hcaller : j.callers[k]? = some caller) : caller = served ∨ k = n ∧ last? = some caller := by
  rw [h.callers, List.getElem?_append, List.length_replicate] at hcaller
  split at hcaller
  · left
    rw [List.getElem?_replicate_of_lt ‹_›] at hcaller
    exact (Option.some.inj hcaller).symm
  · right
    obtain ⟨hlt, hget⟩ := List.getElem?_eq_some_iff.mp hcaller
    cases last? with
    | none => exact nomatch hlt
    | some last =>
      have hk : k - n = 0 := Nat.lt_one_iff.mp hlt
      refine ⟨by omega, ?_⟩
      simp only [hk] at hget
      exact congrArg some hget

/-- The last caller of `Called` is that of the batch's own call. -/
theorem getElem?_last {caller : Caller} (h : Called p n (some caller) j es) :
    j.callers[n]? = some caller := by
  rw [h.callers, List.getElem?_append_right (Nat.le_of_eq (List.length_replicate)),
    List.length_replicate, Nat.sub_self]
  rfl

theorem getElem?_served (h : Called p n last? j es) (hlt : k < n) :
    j.callers[k]? = some served := by
  rw [h.callers, List.getElem?_append_left (by rwa [List.length_replicate])]
  exact List.getElem?_replicate_of_lt hlt

/-- Every caller but the last is over (`isOver`). -/
theorem isOver_of_lt (h : Called p n last? j es) {caller : Caller}
    (hcaller : j.callers[k]? = some caller) (hlt : k + 1 < j.callers.length) :
    caller.isOver = true := by
  rcases h.caller_cases hcaller with rfl | ⟨rfl, rfl⟩
  · rfl
  · rw [h.callers, List.length_append, List.length_replicate] at hlt
    exact absurd hlt (Nat.lt_irrefl _)

/-- A new `call` is that of the last caller. -/
theorem call (h : Called p n none j es) (caller : Caller) :
    Called p n (some caller) (j.call caller) es := by
  refine ⟨?_, h.accepted⟩
  rw [Journal.call, h.callers]
  simp

/-- The last caller goes on, and the others stay `served`. -/
theorem set {caller caller' : Caller} (h : Called p n (some caller) j es)
    (hcallers : j'.callers = j.callers.set n caller')
    (haccepted : es'.filterMap WriteAhead.Event.accepted? = []) :
    Called p n (some caller') j' (es ++ es') := by
  constructor
  · rw [hcallers, h.callers,
      List.set_append_right _ _ (Nat.le_of_eq List.length_replicate), List.length_replicate,
      Nat.sub_self]
    rfl
  · rw [List.filterMap_append, haccepted, List.append_nil, h.accepted]

/-- The write of the last caller is accepted, and the caller is `served` then. -/
theorem accept {caller : Caller} (h : Called p n (some caller) j es)
    (hcallers : j'.callers = j.callers.set n served)
    (haccepted : es'.filterMap WriteAhead.Event.accepted? = [p.idOf n]) :
    Called p (n + 1) none j' (es ++ es') := by
  constructor
  · rw [hcallers, h.callers,
      List.set_append_right _ _ (Nat.le_of_eq List.length_replicate), List.length_replicate,
      Nat.sub_self, List.replicate_succ']
    simp
  · rw [List.filterMap_append, haccepted, h.accepted, p.ids_succ]

end Called

/-! ## Steps beside the batch -/

/-- What happens to the journal beside the calls that the batch begins. -/
inductive IsBeside : Journal.Action → Prop where
  | act (a : Actor) : IsBeside (.act a)
  | complete (t : Token) : IsBeside (.complete t)

/-- Whoever is not the last caller leaves the calls as they are (`Called`). -/
theorem Called.step {step : Journal.Step} (h : Called p n last? j es)
    (hbeside : IsBeside x) (hchange : j.Change x step)
    (hother : ∀ caller, last? = some caller → x = .act (.caller n) → caller.isOver = true) :
    Called p n last? step.1 (es ++ step.2) := by
  have hsame (hcallers : step.1.callers = j.callers)
      (haccepted : step.2.filterMap WriteAhead.Event.accepted? = []) :
      Called p n last? step.1 (es ++ step.2) := by
    refine ⟨hcallers.trans h.callers, ?_⟩
    rw [List.filterMap_append, haccepted, List.append_nil, h.accepted]
  by_cases hcaller : ∃ k, x = .act (.caller k)
  · obtain ⟨k, rfl⟩ := hcaller
    obtain ⟨hcallers, hes⟩ := hchange.of_isOver fun caller hk => by
      rcases h.caller_cases hk with rfl | ⟨rfl, hlast⟩
      · rfl
      · exact hother caller hlast rfl
    exact hsame hcallers (by rw [hes]; rfl)
  · have hact (k : Nat) : x ≠ .act (.caller k) := fun heq => hcaller ⟨k, heq⟩
    refine hsame (hchange.callers_eq hact ?_ ?_) (hchange.accepted_eq_nil hact)
    · cases hbeside <;> simp
    · cases hbeside <;> simp

/-! ## The points of a batch -/

/-- The client has been told of all writes, and the journal closes or is closed. -/
structure Checkpointed (p : Plan) (j : Journal) (es : List WriteAhead.Event) : Prop where
  begun : j.closing ≠ .open
  called : Called p p.writes (some (.drainer .returned)) j es
  notified : es.filterMap WriteAhead.Event.notified? = p.ids p.writes

/-- What happens beside the batch (`IsBeside`) changes nothing about it. -/
theorem Checkpointed.beside (h : Checkpointed p j es) (hrun : Journal.Run c acts j es)
    (hbeside : IsBeside x) (hstep : j.step x = some (j', es')) :
    Checkpointed p j' (es ++ es') := by
  have hchange := Journal.change_of_step hrun.attended hstep
  have hcalled := h.called.step hbeside hchange fun caller hlast _ => by
    obtain rfl := Option.some.inj hlast
    rfl
  refine ⟨(hchange.closerStepsLeft_le h.begun).2, hcalled, ?_⟩
  -- The client is told only of what was accepted, and it knows of all that.
  have hprefix : (es ++ es').filterMap WriteAhead.Event.notified? <+: p.ids p.writes := by
    rw [← hcalled.accepted]
    exact (List.prefix_append _ _).trans (hrun.step hstep).pipeline.delivers.isPrefix
  refine hprefix.eq_of_length_le ?_
  rw [List.filterMap_append, h.notified, List.length_append]
  exact Nat.le_add_right ..

/-- Where a batch stands at a point, with the events of the journal so far. -/
inductive Stands (p : Plan) (j : Journal) (es : List WriteAhead.Event) : Point → Prop where
  /-- All requests so far have been answered. -/
  | requesting {i : Nat} (hle : i ≤ p.writes) (hopen : j.closing = .open)
      (hcalled : Called p i none j es) : Stands p j es (.requesting i)
  /-- A request is on its way. -/
  | awaiting {i : Nat} {point : Submission} {left : List WriteId} (hlt : i < p.writes)
      (hopen : j.closing = .open) (hcalled : Called p i (some (.submitter point left [])) j es)
      (hahead : (Caller.submitter point left []).ahead = [p.idOf i]) :
      Stands p j es (.awaitingAnswer i)
  /-- A write has been accepted. -/
  | answered {i : Nat} (hlt : i < p.writes) (hopen : j.closing = .open)
      (hcalled : Called p (i + 1) none j es) : Stands p j es (.awaitingAnswer i)
  /-- All writes are waited for. -/
  | draining {point : Drain} (hopen : j.closing = .open)
      (hcalled : Called p p.writes (some (.drainer point)) j es)
      (hflight : point = .returned → j.table.table.inFlight = 0) : Stands p j es .draining
  /-- The journal closes. -/
  | closing (h : Checkpointed p j es) : Stands p j es (.closing none)
  /-- The journal is closed. -/
  | ended (h : Checkpointed p j es) : Stands p j es (.ended none)

namespace Stands

/-- The callers are as `Called` says, whatever the point. -/
theorem called (h : Stands p j es point) : ∃ n last?, n ≤ p.writes ∧ Called p n last? j es := by
  cases h with
  | requesting hle hopen hcalled => exact ⟨_, _, hle, hcalled⟩
  | awaiting hlt hopen hcalled => exact ⟨_, _, Nat.le_of_lt hlt, hcalled⟩
  | answered hlt hopen hcalled => exact ⟨_, _, hlt, hcalled⟩
  | draining hopen hcalled => exact ⟨_, _, Nat.le_refl _, hcalled⟩
  | closing h | ended h => exact ⟨_, _, Nat.le_refl _, h.called⟩

/-- What happens beside the batch (`IsBeside`) leaves it where it stands. -/
theorem beside (h : Stands p j es point) (hrun : Journal.Run c acts j es)
    (hslots : ∀ i, p.idOf i < c.maxRequests) (hbeside : IsBeside x)
    (hstep : j.step x = some (j', es')) : Stands p j' (es ++ es') point := by
  have hchange := Journal.change_of_step hrun.attended hstep
  have hdown : x ≠ .shutDown := by cases hbeside <;> simp
  have hopen' (hopen : j.closing = .open) : j'.closing = .open :=
    hchange.closing_of_open hopen hdown
  cases h with
  | requesting hle hopen hcalled =>
    exact .requesting hle (hopen' hopen) (hcalled.step hbeside hchange (by simp))
  | @awaiting i point left hlt hopen hcalled hahead =>
    by_cases hx : x = .act (.caller i)
    · subst hx
      cases hrun.request_step hopen (hslots i) hcalled.getElem?_last hahead hchange with
      | goes point left hahead hcallers haccepted =>
        exact .awaiting hlt (hopen' hopen) (hcalled.set hcallers haccepted) hahead
      | accepted hcallers haccepted =>
        exact .answered hlt (hopen' hopen) (hcalled.accept hcallers haccepted)
    · exact .awaiting hlt (hopen' hopen)
        (hcalled.step hbeside hchange fun _ _ heq => absurd heq hx) hahead
  | answered hlt hopen hcalled =>
    exact .answered hlt (hopen' hopen) (hcalled.step hbeside hchange (by simp))
  | @draining point hopen hcalled hflight =>
    by_cases hx : x = .act (.caller p.writes)
    · subst hx
      obtain ⟨hes, point', hcallers, hreturned⟩ := hchange.drain_step hcalled.getElem?_last
      have hes : es' = [] := hes
      subst hes
      refine .draining (hopen' hopen) (hcalled.set hcallers rfl) fun hpoint' => ?_
      rcases hreturned hpoint' with hpoint | hflight'
      · exact hrun.inFlight_step hstep (hflight hpoint) (by simp)
      · exact hflight'
    · have hcalled' := hcalled.step hbeside hchange fun _ _ heq => absurd heq hx
      refine .draining (hopen' hopen) hcalled' fun hpoint => ?_
      refine hrun.inFlight_step hstep (hflight hpoint) fun id g hacquired => ?_
      -- Whoever claims a slot is a caller, and all others have returned.
      obtain ⟨k, rfl⟩ := (hrun.move hstep).caller_of_acquired hacquired
      have hes : es' = [] := (hchange.of_isOver fun caller hcaller => by
        rcases hcalled.caller_cases hcaller with rfl | ⟨rfl, -⟩
        · rfl
        · exact absurd rfl hx).2
      rw [hes] at hacquired
      exact nomatch hacquired
  | closing h => exact .closing (h.beside hrun hbeside hstep)
  | ended h => exact .ended (h.beside hrun hbeside hstep)

end Stands

/-! ## Runs -/

variable {as : List Action} {a : Action} {b b' : Batch} {log log' : List Event}

/-- A call has its `answer?` when it is over, and a request answers with what its caller was
answered. -/
theorem answer?_eq_some {answer : Option JournalError} {caller : Caller}
    (h : b.answer? = some answer) (hcall : b.call? = some k)
    (hcaller : b.simulation.journal.callers[k]? = some caller) :
    caller.isOver = true ∧ (caller = served → answer = none) := by
  obtain ⟨k', hcall', h⟩ := Option.bind_eq_some_iff.mp h
  obtain rfl := Option.some.inj (hcall.symm.trans hcall')
  obtain ⟨hreturned, h⟩ := Option.ite_none_right_eq_some.mp h
  rw [Journal.hasReturned, hcaller, Bool.and_eq_true] at hreturned
  refine ⟨hreturned.1, ?_⟩
  rintro rfl
  rw [hcaller] at h
  exact (Option.some.inj h).symm

/-- A request is answered when its write has been accepted, so the batch `Stands` at the next
one. -/
theorem Stands.of_answer {i : Nat} {answer : Option JournalError}
    (h : Stands p b.simulation.journal es (.awaitingAnswer i))
    (hpoint : b.point = .awaitingAnswer i) (hanswer : b.answer? = some answer) :
    answer = none ∧ Stands p b.simulation.journal es (.requesting (i + 1)) := by
  have hcall : b.call? = some i := by rw [call?, hpoint]
  cases h with
  | awaiting hlt hopen hcalled hahead =>
    have hover := (answer?_eq_some hanswer hcall hcalled.getElem?_last).1
    rw [Caller.ahead_eq_nil_of_isOver hover] at hahead
    exact nomatch hahead
  | answered hlt hopen hcalled =>
    have hcaller := hcalled.getElem?_served (Nat.lt_succ_self i)
    exact ⟨(answer?_eq_some hanswer hcall hcaller).2 rfl, .requesting hlt hopen hcalled⟩

/-- When the call that waits for all writes has returned, `inFlight` is 0. -/
theorem Stands.of_drained {answer : Option JournalError}
    (h : Stands b.plan b.simulation.journal es .draining) (hpoint : b.point = .draining)
    (hanswer : b.answer? = some answer) :
    b.simulation.journal.closing = .open ∧ b.simulation.journal.table.table.inFlight = 0 ∧
      Called b.plan b.plan.writes (some (.drainer .returned)) b.simulation.journal es := by
  have hcall : b.call? = some b.plan.writes := by rw [call?, hpoint]
  cases h with
  | @draining point hopen hcalled hflight =>
    have hover := (answer?_eq_some hanswer hcall hcalled.getElem?_last).1
    obtain rfl : point = .returned := by simpa [Caller.isOver] using hover
    exact ⟨hopen, hflight rfl, hcalled⟩

/-- A `shutDown` takes an open journal to the closing of its first queue. -/
theorem step_shutDown_of_open (hopen : j.closing = .open)
    (hstep : j.step .shutDown = some (j', es')) :
    j' = { j with closing := .closing .metadata } := by
  simp only [Journal.step, hopen, if_true] at hstep
  split at hstep
  · cases hstep
  · exact (congrArg Prod.fst (Option.some.inj hstep)).symm

/-- What a step comes to where a batch stands as its point says, with the events of the journal so
far. The calls that it begins are let in, and no request is refused. -/
inductive Advance (b : Batch) (es : List WriteAhead.Event) : Action → Step → Prop where
  /-- Something happens in the simulation. -/
  | world {a : Action} {y : Simulation.Action} {s : Simulation} {es' : List Simulation.Event}
      (hy : a.simulation? = some y) (hstep : b.simulation.step y = some (s, es')) :
      Advance b es a ({ b with simulation := s }, es'.map .simulation)
  /-- A write is requested. -/
  | request {i : Nat} (hpoint : b.point = .requesting i) (hlt : i < b.plan.writes) :
      Advance b es .own ({ b with
        simulation.journal := b.simulation.journal.call (.submitter .between [b.plan.idOf i] [])
        point := .awaitingAnswer i }, [.requesting (b.plan.idOf i)])
  /-- After the last request all writes are waited for. -/
  | await (hpoint : b.point = .requesting b.plan.writes) :
      Advance b es .own ({ b with
        simulation.journal := b.simulation.journal.call (.drainer .entering)
        point := .draining }, [])
  /-- A request has been accepted. -/
  | answered {i : Nat} (hpoint : b.point = .awaitingAnswer i) (hanswer : b.answer? = some none) :
      Advance b es .own ({ b with point := .requesting (i + 1) }, [])
  /-- All writes are drained. -/
  | drained {answer : Option JournalError} (hpoint : b.point = .draining)
      (hanswer : b.answer? = some answer) (hopen : b.simulation.journal.closing = .open)
      (hflight : b.simulation.journal.table.table.inFlight = 0)
      (hcalled : Called b.plan b.plan.writes (some (.drainer .returned)) b.simulation.journal es) :
      Advance b es .own ({ b with
        simulation.journal.closing := .closing .metadata
        point := .closing none }, b.totals)
  /-- The journal is shut down. -/
  | done (hpoint : b.point = .closing none) :
      Advance b es .own ({ b with point := .ended none }, [])

/-- Where a batch `Stands` as its point says, no turn is a refusal. -/
theorem Turn.advance {step : Step} (hturn : Turn b a step)
    (h : Stands b.plan b.simulation.journal es b.point) : Advance b es a step := by
  cases hturn with
  | world hy hstep => exact .world hy hstep
  | request hpoint hlt hstep =>
    obtain ⟨-, heq⟩ := Option.ite_none_right_eq_some.mp hstep
    obtain ⟨rfl, -⟩ := Prod.mk.inj (Option.some.inj heq)
    exact .request hpoint hlt
  | await hpoint hle hstep =>
    obtain ⟨-, heq⟩ := Option.ite_none_right_eq_some.mp hstep
    obtain ⟨rfl, -⟩ := Prod.mk.inj (Option.some.inj heq)
    rw [hpoint] at h
    cases h with
    | requesting hle' =>
      obtain rfl := Nat.le_antisymm hle' hle
      exact .await hpoint
  | answered hpoint hanswer => exact .answered hpoint hanswer
  -- The journal is open, so no request is refused.
  | refused hpoint hanswer =>
    rw [hpoint] at h
    cases (h.of_answer hpoint hanswer).1
  | drained hpoint hanswer hstep =>
    rw [hpoint] at h
    obtain ⟨hopen, hflight, hcalled⟩ := h.of_drained hpoint hanswer
    obtain rfl := step_shutDown_of_open hopen hstep
    exact .drained hpoint hanswer hopen hflight hcalled
  | done hpoint =>
    rw [hpoint] at h
    cases h with
    | closing => exact .done hpoint

/-- Every id of a plan (`idOf`) has a slot. -/
theorem Run.idOf_lt (h : Run p as b log) (i : Nat) : p.idOf i < p.config.maxRequests := by
  induction h with
  | start hstart =>
    obtain ⟨j, es, hjournal, -, -⟩ := start_eq_ok hstart
    exact Nat.mod_lt i (Journal.start_eq_ok hjournal).2.1
  | step hrun hstep ih => exact ih

/-- What happens to the journal when something happens in the simulation: nothing, or a step beside
the batch (`IsBeside`). -/
theorem Run.beside {y : Simulation.Action} {s : Simulation} {es : List Simulation.Event}
    (hrun : Run p as b log) (hy : a.simulation? = some y)
    (hstep : b.simulation.step y = some (s, es)) :
    s.journal = b.simulation.journal ∧ Simulation.journalEvents es = [] ∨
      ∃ x, IsBeside x ∧
        b.simulation.journal.step x = some (s.journal, Simulation.journalEvents es) := by
  obtain ⟨hwired, acts, hjournal, -⟩ := hrun.journal
  obtain ⟨-, acts', hmotion, hacts⟩ := Simulation.motion_of_step hjournal hwired hstep
  have hbeside {x : Journal.Action} (hx : x ∈ acts') : IsBeside x := by
    rcases hacts x hx with rfl | ⟨t, rfl⟩
    · cases a <;> cases hy
      exact .act _
    · exact .complete t
  revert hmotion
  generalize Simulation.journalEvents es = es'
  intro hmotion
  cases hmotion with
  | journal hstep | hand hstep | give hstep =>
    exact .inr ⟨_, hbeside (List.mem_singleton_self _), hstep⟩
  | turn hjournal => exact .inl ⟨hjournal, rfl⟩

/-- A batch `Stands` as its point says, along every run. -/
theorem Run.stands (h : Run p as b log) :
    Stands p b.simulation.journal (journalEvents log) b.point := by
  induction h with
  | start hstart =>
    obtain ⟨j, es, hjournal, rfl, rfl⟩ := start_eq_ok hstart
    obtain ⟨-, -, rfl, rfl⟩ := Journal.start_eq_ok hjournal
    exact .requesting (Nat.zero_le _) rfl ⟨rfl, rfl⟩
  | @step as b b' log log' a hrun hstep ih =>
    rw [journalEvents_append]
    obtain rfl := hrun.plan_eq
    obtain ⟨-, acts, hjournal, -⟩ := hrun.journal
    have hadvance := (turn_of_step hstep).advance ih
    clear hstep
    cases hadvance with
    | @world _ x s es hy hstep =>
      rw [show journalEvents (es.map .simulation) = Simulation.journalEvents es from
        congrArg Simulation.journalEvents (simulation?_map_simulation es)]
      -- What the world does is no step of the journal, or one that leaves the driver where it is.
      rcases hrun.beside hy hstep with ⟨hsame, hnone⟩ | ⟨x, hbeside, hstep⟩
      · rw [hnone, List.append_nil]
        exact hsame.symm ▸ ih
      · exact ih.beside hjournal hrun.idOf_lt hbeside hstep
    | @request i hpoint hlt =>
      rw [hpoint] at ih
      rw [show journalEvents [.requesting (b.plan.idOf i)] = [] from rfl, List.append_nil]
      cases ih with
      | requesting hle hopen hcalled => exact .awaiting hlt hopen (hcalled.call _) rfl
    | await hpoint =>
      rw [hpoint] at ih
      rw [show journalEvents [] = [] from rfl, List.append_nil]
      cases ih with
      | requesting hle hopen hcalled => exact .draining hopen (hcalled.call _) (by simp)
    | answered hpoint hanswer =>
      rw [hpoint] at ih
      rw [show journalEvents [] = [] from rfl, List.append_nil]
      exact (ih.of_answer hpoint hanswer).2
    | drained hpoint hanswer hopen hflight hcalled =>
      rw [show journalEvents b.totals = [] from rfl, List.append_nil]
      refine .closing ⟨by simp, ⟨hcalled.callers, hcalled.accepted⟩, ?_⟩
      rw [(hjournal.quiescent hopen hflight).notified, hcalled.accepted]
    | done hpoint =>
      rw [hpoint] at ih
      rw [show journalEvents [] = [] from rfl, List.append_nil]
      cases ih with
      | closing h => exact .ended h

/-- What a step comes to after a run is one of the cases of `Advance`. -/
theorem Run.advance (h : Run p as b log) {step : Step} (hstep : b.step a = some step) :
    Advance b (journalEvents log) a step := by
  obtain rfl := h.plan_eq
  exact (turn_of_step hstep).advance h.stands

/-! ## What the client and the log are told -/

/-- The client is told (`notified`) of the writes of the plan in their order. -/
theorem Run.notified_isPrefix (h : Run p as b log) : notified log <+: p.ids p.writes := by
  obtain ⟨-, acts, hjournal, -⟩ := h.journal
  obtain ⟨n, last?, hle, hcalled⟩ := h.stands.called
  have hprefix : notified log <+: p.ids n := by
    rw [notified_eq, ← hcalled.accepted]
    exact (List.prefix_append _ _).trans hjournal.pipeline.delivers.isPrefix
  exact hprefix.trans (p.ids_prefix hle)

/-- Whether the thread of a batch has begun to shut the journal down. -/
def Point.isClosing : Point → Bool
  | .closing _ | .ended _ => true
  | .requesting _ | .awaitingAnswer _ | .draining => false

/-- The sums of the stages (`processed`) are taken once, when each has advanced all writes. -/
theorem Run.processed_eq (h : Run p as b log) :
    processed log = if b.point.isClosing then Stage.all.map (·, p.writes) else [] := by
  induction h with
  | start hstart =>
    obtain ⟨j, es, -, rfl, rfl⟩ := start_eq_ok hstart
    have hnone := processed_map_simulation (es.map .journal)
    rw [List.map_map] at hnone
    exact hnone
  | @step as b b' log log' a hrun hstep ih =>
    obtain rfl := hrun.plan_eq
    have hadvance := hrun.advance hstep
    clear hstep
    rw [processed, List.filterMap_append]
    change processed log ++ processed log' = _
    rw [ih]
    cases hadvance with
    | world hy hstep => rw [processed_map_simulation, List.append_nil]
    | request hpoint | await hpoint | answered hpoint | done hpoint => rw [hpoint]; rfl
    | drained hpoint hanswer hopen hflight hcalled =>
      obtain ⟨-, acts, hjournal, -⟩ := hrun.journal
      -- The journal is quiescent here, so each stage has processed what was accepted.
      have hprocessed (s : Stage) : b.simulation.journal.processed s = b.plan.writes := by
        rw [((hjournal.quiescent hopen hflight).counters s).1, hcalled.accepted,
          b.plan.length_ids]
      rw [hpoint]
      show Stage.all.map (fun s => (s, b.simulation.journal.processed s)) =
        Stage.all.map (·, b.plan.writes)
      exact List.map_congr_left fun s _ => congrArg (s, ·) (hprocessed s)

end Batch

end WriteAhead
