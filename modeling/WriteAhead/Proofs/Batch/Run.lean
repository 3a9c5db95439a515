import WriteAhead.Batch
import WriteAhead.Proofs.Simulation.Run

/-!
# Runs of a batch

A run begins with the start of a batch and goes on by any sequence of possible actions: of the
batch's own thread, of the threads in the journal and in the device, of the timer, and of time.
`Turn` lists what a step comes to. Whatever the batch does to the journal and to the device is
something that can happen in a simulation, so a run of a batch is one of its simulation, in which
nobody panics, drops a token, puts an operation on hold or reports by write id.

## Key results

- `turn_of_step`: what a step comes to
- `Run.simulation`, `Run.journal`: what happens to the simulation and to its journal in a run
-/

namespace WriteAhead

/-- The journal and the device of a plan. -/
def Plan.setup (p : Plan) : Simulation.Setup where
  config := p.config
  latency := p.latency
  delays := p.slowTxe?.toList.map (Operation.journalTxe, ·)

namespace Batch

/-! ## Actions and events -/

/-- Whether the action is the passing of time. -/
def Action.isPass : Action → Bool
  | .pass _ => true
  | _ => false

/-- What happens in the simulation; none if the batch's own thread goes on. -/
def Action.simulation? : Action → Option Simulation.Action
  | .own => none
  | .act a => some (.journal (.act a))
  | .device th => some (.device th)
  | .fire => some .fire
  | .pass instant => some (.pass instant)

/-- The event of the simulation, if it is one. -/
def Event.simulation? : Event → Option Simulation.Event
  | .simulation e => some e
  | _ => none

/-- The stage of which it is the sum, with the writes that it advanced. -/
def Event.processed? : Event → Option (Stage × Nat)
  | .stageTotal s processed _ => some (s, processed)
  | _ => none

/-- The events of the journal. -/
def journalEvents (es : List Event) : List WriteAhead.Event :=
  Simulation.journalEvents (es.filterMap Event.simulation?)

/-- The writes of which the client is told. -/
def notified (es : List Event) : List WriteId := es.filterMap Event.notified?

/-- The sums of the stages. -/
def processed (es : List Event) : List (Stage × Nat) := es.filterMap Event.processed?

theorem journalEvents_append (es es' : List Event) :
    journalEvents (es ++ es') = journalEvents es ++ journalEvents es' := by
  rw [journalEvents, List.filterMap_append, Simulation.journalEvents_append]
  rfl

theorem simulation?_map_simulation (es : List Simulation.Event) :
    (es.map Event.simulation).filterMap Event.simulation? = es := by
  rw [List.filterMap_map]
  exact List.filterMap_some

/-- The client is told by the journal, in `notified` events. -/
theorem notified_eq (es : List Event) :
    notified es = (journalEvents es).filterMap WriteAhead.Event.notified? := by
  rw [notified, journalEvents, Simulation.journalEvents, List.filterMap_filterMap,
    List.filterMap_filterMap]
  refine List.filterMap_congr fun e _ => ?_
  cases e with
  | simulation e => cases e <;> rfl
  | _ => rfl

theorem processed_map_simulation (es : List Simulation.Event) :
    processed (es.map Event.simulation) = [] := by
  rw [processed, List.filterMap_map]
  exact List.filterMap_eq_nil_iff.mpr fun _ _ => rfl

/-! ## What a step comes to -/

variable {p : Plan} {as : List Action} {a : Action} {b b' : Batch} {es es' : List Event}

/-- What a step comes to. A call into the journal that the batch begins yields no event itself. -/
inductive Turn (b : Batch) : Action → Step → Prop where
  /-- Something happens in the simulation. -/
  | world {a : Action} {x : Simulation.Action} {s : Simulation} {es : List Simulation.Event}
      (hx : a.simulation? = some x) (hstep : b.simulation.step x = some (s, es)) :
      Turn b a ({ b with simulation := s }, es.map .simulation)
  /-- A write is requested. -/
  | request {i : Nat} {j : Journal} (hpoint : b.point = .requesting i) (hlt : i < b.plan.writes)
      (hstep : b.simulation.journal.step (.submit [b.plan.idOf i]) = some (j, [])) :
      Turn b .own ({ b with simulation.journal := j, point := .awaitingAnswer i },
        [.requesting (b.plan.idOf i)])
  /-- After the last request all writes are waited for. -/
  | await {i : Nat} {j : Journal} (hpoint : b.point = .requesting i) (hle : b.plan.writes ≤ i)
      (hstep : b.simulation.journal.step .awaitAll = some (j, [])) :
      Turn b .own ({ b with simulation.journal := j, point := .draining }, [])
  /-- A request has been accepted. -/
  | answered {i : Nat} (hpoint : b.point = .awaitingAnswer i) (hanswer : b.answer? = some none) :
      Turn b .own ({ b with point := .requesting (i + 1) }, [])
  /-- A request has been refused. -/
  | refused {i : Nat} {e : JournalError} {j : Journal}
      (hpoint : b.point = .awaitingAnswer i) (hanswer : b.answer? = some (some e))
      (hstep : b.simulation.journal.step .shutDown = some (j, [])) :
      Turn b .own ({ b with
        simulation.journal := j, point := .closing (some (.request (b.plan.idOf i) e)) }, [])
  /-- All writes are drained. -/
  | drained {answer : Option JournalError} {j : Journal}
      (hpoint : b.point = .draining) (hanswer : b.answer? = some answer)
      (hstep : b.simulation.journal.step .shutDown = some (j, [])) :
      Turn b .own ({ b with simulation.journal := j, point := .closing none }, b.totals)
  /-- The journal is shut down. -/
  | done {f : Option Failure} (hpoint : b.point = .closing f)
      (hdone : b.simulation.journal.isShutDown = true) :
      Turn b .own ({ b with point := .ended f }, [])

/-- What the thread of a batch begins in the journal. -/
inductive IsCall : Journal.Action → Prop where
  | submit (ids : List WriteId) : IsCall (.submit ids)
  | awaitAll : IsCall .awaitAll
  | shutDown : IsCall .shutDown

/-- A call that begins (`IsCall`) yields no event. -/
private theorem events_of_isCall {j : Journal} {x : Journal.Action} {step : Journal.Step}
    (hx : IsCall x) (h : j.step x = some step) : step.2 = [] := by
  cases hx <;> simp only [Journal.step] at h <;> repeat' split at h
  all_goals cases h <;> rfl

/-- A call that begins (`IsCall`) changes the journal only. -/
theorem step_of_isCall {x : Journal.Action} (hx : IsCall x) (s : Simulation) :
    s.step (.journal x) =
      (s.journal.step x).map fun step => ({ s with journal := step.1 }, []) := by
  have hadmits : s.admits x = true := by cases hx <;> rfl
  rw [Simulation.step, if_pos hadmits]
  cases hstep : s.journal.step x with
  | none => rfl
  | some step =>
    obtain ⟨j, es⟩ := step
    obtain rfl : es = [] := events_of_isCall hx hstep
    -- Nothing is handed over, so the device stays as it is.
    show some (({ s with journal := j, device := if s.wired then s.device else s.device } :
      Simulation), []) = _
    rw [ite_self]
    rfl

/-- The thread of a batch can begin (`enter`) what the journal allows. -/
theorem enter_eq {x : Journal.Action} (hx : IsCall x) (b : Batch) (point : Point)
    (said : List Event) : b.enter x point said = (b.simulation.journal.step x).map fun step =>
      ({ b with simulation.journal := step.1, point }, said) := by
  rw [enter, world, step_of_isCall hx]
  cases b.simulation.journal.step x with
  | none => rfl
  | some step => simp

/-- What the thread of a batch begins by `enter` is a call on the journal, and it goes to the point
that it names. -/
private theorem enter_eq_some {x : Journal.Action} {point : Point} {said : List Event}
    {step : Step} (hx : IsCall x) (h : b.enter x point said = some step) :
    ∃ j, b.simulation.journal.step x = some (j, []) ∧
      step = ({ b with simulation.journal := j, point }, said) := by
  rw [enter_eq hx] at h
  obtain ⟨⟨j, es⟩, hstep, rfl⟩ := Option.map_eq_some_iff.mp h
  obtain rfl : es = [] := events_of_isCall hx hstep
  exact ⟨j, hstep, rfl⟩

/-- What happens beside the thread of a batch (`world`) is a step of its simulation. -/
private theorem turn_of_world {x : Simulation.Action} {step : Step}
    (hx : a.simulation? = some x) (h : b.world x = some step) : Turn b a step := by
  obtain ⟨⟨s, es⟩, hstep, rfl⟩ := Option.map_eq_some_iff.mp h
  exact .world hx hstep

/-- What a `step` comes to is a `Turn`: one case for each point of the thread. -/
theorem turn_of_step {step : Step} (h : b.step a = some step) : Turn b a step := by
  cases a with
  | act | device | fire | pass => exact turn_of_world rfl h
  | own =>
    change b.ownStep = some step at h
    unfold ownStep at h
    split at h
    · rename_i i hpoint
      simp only at h
      split at h
      · rename_i hlt
        obtain ⟨j, hstep, rfl⟩ := enter_eq_some (.submit _) h
        exact .request hpoint hlt hstep
      · rename_i hle
        obtain ⟨j, hstep, rfl⟩ := enter_eq_some .awaitAll h
        exact .await hpoint (Nat.le_of_not_lt hle) hstep
    · rename_i i hpoint
      obtain ⟨answer, hanswer, h⟩ := Option.bind_eq_some_iff.mp h
      split at h
      · obtain rfl := Option.some.inj h
        exact .answered hpoint hanswer
      · obtain ⟨j, hstep, rfl⟩ := enter_eq_some .shutDown h
        exact .refused hpoint hanswer hstep
    · rename_i hpoint
      obtain ⟨answer, hanswer, h⟩ := Option.bind_eq_some_iff.mp h
      obtain ⟨j, hstep, rfl⟩ := enter_eq_some .shutDown h
      exact .drained hpoint hanswer hstep
    · rename_i f hpoint
      obtain ⟨hdone, heq⟩ := Option.ite_none_right_eq_some.mp h
      obtain rfl := Option.some.inj heq
      exact .done hpoint hdone
    · exact nomatch h

/-! ## Runs -/

/-- The actions `as` lead from the start of a batch to `b`, with the events `es`. -/
inductive Run (p : Plan) : List Action → Batch → List Event → Prop where
  /-- A batch starts. -/
  | start {b : Batch} {es : List Event} (hstart : Batch.start p = .ok (b, es)) : Run p [] b es
  /-- One more action is taken. -/
  | step {as : List Action} {b b' : Batch} {es es' : List Event} {a : Action}
      (hrun : Run p as b es) (hstep : b.step a = some (b', es')) :
      Run p (as ++ [a]) b' (es ++ es')

/-- A batch starts if its journal does (`Journal.start`), with the device of its plan. -/
theorem start_eq_ok (h : Batch.start p = .ok (b, es)) :
    ∃ j log, Journal.start p.config = .ok (j, log) ∧
      b = { plan := p, simulation := { journal := j, device := p.device } } ∧
      es = log.map fun e => .simulation (.journal e) := by
  unfold Batch.start at h
  cases hstart : Journal.start p.config with
  | error e => rw [hstart] at h; exact nomatch h
  | ok step =>
    rw [hstart] at h
    obtain ⟨rfl, rfl⟩ := Prod.mk.inj (Except.ok.inj h)
    exact ⟨_, _, rfl, rfl, rfl⟩

/-- The `plan` is for ever. -/
theorem Run.plan_eq (h : Run p as b es) : b.plan = p := by
  induction h with
  | start hstart =>
    obtain ⟨j, log, -, rfl, -⟩ := start_eq_ok hstart
    rfl
  | step hrun hstep ih => cases turn_of_step hstep <;> exact ih

/-- What can happen to the simulation of a batch. -/
def IsOrdinary : Simulation.Action → Prop
  | .journal (.act _) | .journal (.submit _) | .journal .awaitAll | .journal .shutDown
  | .device _ | .fire | .pass _ => True
  | _ => False

/-- The simulation takes an ordinary step (`IsOrdinary`), or it stays as it is. -/
theorem Turn.simulation {step : Step} (h : Turn b a step) :
    (∃ x, IsOrdinary x ∧ b.simulation.step x =
        some (step.1.simulation, step.2.filterMap Event.simulation?)) ∨
      step.1.simulation = b.simulation ∧ step.2.filterMap Event.simulation? = [] := by
  have hcall {x : Journal.Action} {j : Journal} (hx : IsCall x)
      (hstep : b.simulation.journal.step x = some (j, [])) :
      b.simulation.step (.journal x) = some ({ b.simulation with journal := j }, []) := by
    rw [step_of_isCall hx, hstep]
    rfl
  cases h with
  | world hx hstep =>
    refine .inl ⟨_, ?_, by rw [simulation?_map_simulation]; exact hstep⟩
    cases a <;> cases hx <;> trivial
  | @request i j _ _ hstep =>
    exact .inl ⟨.journal (.submit [b.plan.idOf i]), trivial, hcall (.submit _) hstep⟩
  | await _ _ hstep => exact .inl ⟨.journal .awaitAll, trivial, hcall .awaitAll hstep⟩
  | refused _ _ hstep | drained _ _ hstep =>
    exact .inl ⟨.journal .shutDown, trivial, hcall .shutDown hstep⟩
  | answered | done => exact .inr ⟨rfl, rfl⟩

/-- What happens to the simulation in a run is a `Simulation.Run`. -/
theorem Run.simulation (h : Run p as b es) :
    ∃ acts, Simulation.Run p.setup acts b.simulation (es.filterMap Event.simulation?) ∧
      ∀ x ∈ acts, IsOrdinary x := by
  induction h with
  | start hstart =>
    obtain ⟨j, log, hjournal, rfl, rfl⟩ := start_eq_ok hstart
    have hlog := simulation?_map_simulation (log.map .journal)
    rw [List.map_map] at hlog
    exact ⟨[], hlog.symm ▸ .start hjournal, nofun⟩
  | step hrun hstep ih =>
    obtain ⟨acts, hsimulation, hacts⟩ := ih
    rw [List.filterMap_append]
    rcases (turn_of_step hstep).simulation with ⟨x, hx, hsim⟩ | ⟨hsame, hnone⟩
    · refine ⟨acts ++ [x], hsimulation.step hsim, fun y hy => ?_⟩
      rcases List.mem_append.mp hy with hy | hy
      · exact hacts y hy
      · exact List.mem_singleton.mp hy ▸ hx
    · rw [hnone, List.append_nil]
      exact ⟨acts, hsame ▸ hsimulation, hacts⟩

/-- What happens to the journal in a run is a `Journal.Run`, in which the client and the device keep
to their contracts and nobody reports by write id. -/
theorem Run.journal (h : Run p as b es) :
    b.simulation.Wired ∧ ∃ acts, Journal.Run p.config acts b.simulation.journal (journalEvents es) ∧
      (∀ x ∈ acts, x.isMishap = false) ∧ ∀ id op, .report id op ∉ acts := by
  obtain ⟨acts, hsimulation, hordinary⟩ := h.simulation
  obtain ⟨hwired, acts', hjournal, hacts⟩ := hsimulation.actions
  refine ⟨hwired, acts', hjournal, fun x hx => ?_, fun id op hx => ?_⟩
  · rcases hacts x hx with hmem | ⟨t, rfl⟩
    · have := hordinary _ hmem
      cases x <;> first | rfl | cases this
    · rfl
  · rcases hacts _ hx with hmem | ⟨t, heq⟩
    · exact hordinary _ hmem
    · cases heq

end Batch

end WriteAhead
