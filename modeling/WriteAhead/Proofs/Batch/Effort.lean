import WriteAhead.Proofs.Batch.Standing
import WriteAhead.Proofs.Journal.Effort

/-!
# The effort that is left in a batch

What the thread of a batch has still to begin, what is left in the journal and what is left in the
device make up the effort that is left in a batch. Every step lowers it, but for the passing of
time, which does not raise it and lowers it where the timer is waited for. So in any schedule a
batch takes a bounded number of steps.

## Key results

- `Run.effort_step`: what a step does to the effort
- `Run.countP_steps_le`: how many steps other than the passing of time a run has at most
- `Simulation.effort_wait`: a wait for the timer lowers the effort
-/

namespace WriteAhead

open Device (wakeEffort issueEffort)
open Journal (handedCount)

/-! ## The simulation -/

namespace Simulation

/-- The effort left in a journal on a simulated device. -/
def effort (s : Simulation) : Nat := s.journal.effort + s.device.effort s.now

variable {s s' : Simulation} {es : List Event} {a : Actor} {th : Device.Thread}
  {instant : Device.Instant}

/-- The device takes the tokens that are handed over, each with its `issueEffort`. -/
theorem effort_accept (d : Device) (es : List WriteAhead.Event) (now : Device.Instant) :
    (accept d es).effort now = d.effort now + issueEffort * handedCount es := by
  rw [accept, handedCount]
  induction es.filterMap handed? generalizing d with
  | nil => rfl
  | cons x xs ih =>
    rw [List.foldl_cons, ih, Device.effort_issue, List.length_cons, Nat.mul_succ]
    omega

/-- A step of an actor of the journal lowers the `effort`, even with what it hands over. -/
theorem effort_act (hattended : s.journal.Attended) (hwired : s.wired = true)
    (h : s.step (.journal (.act a)) = some (s', es)) (hwoken : s'.journal.woken < wakeEffort) :
    s'.effort < s.effort := by
  obtain ⟨-, j', es', hstep, heq⟩ := step_journal_eq_some h
  obtain ⟨rfl, -⟩ := Prod.mk.inj heq
  have hjournal := (Journal.change_of_step hattended hstep).effort_lt hwoken
  show j'.effort + (if s.wired then accept s.device es' else s.device).effort s.now < _
  rw [hwired, if_pos rfl, effort_accept]
  simp only [effort] at hjournal ⊢
  omega

/-- A critical section of a thread inside the device lowers `effort`. The clock has no end, so that
no deadline is past it and no token gets lost on the way. -/
theorem effort_device (hsound : s.device.Sound) (hclock : s.device.last? = none)
    (h : s.step (.device th) = some (s', es)) (hwoken : s'.journal.woken < wakeEffort) :
    s'.effort < s.effort := by
  obtain ⟨⟨d', notices, given?⟩, hd, heq⟩ := Option.map_eq_some_iff.mp h
  have hdevice := hsound.effort_step hd
  rw [Device.losing?_of_last? hclock] at heq
  cases given? with
  | none =>
    obtain ⟨rfl, -⟩ := Prod.mk.inj heq
    simp only [effort]
    exact Nat.add_lt_add_left hdevice _
  | some t =>
    obtain ⟨rfl, -⟩ := Prod.mk.inj heq
    have hjournal := Journal.effort_complete t hwoken
    simp only [Option.isSome_some, if_true] at hdevice
    show (s.journal.complete t).1.effort + d'.effort s.now <
      s.journal.effort + s.device.effort s.now
    omega

/-- A timer that fires lowers the `effort`. -/
theorem effort_fire (h : s.step .fire = some (s', es)) : s'.effort < s.effort := by
  obtain ⟨d', hfire, heq⟩ := Option.map_eq_some_iff.mp h
  obtain ⟨rfl, -⟩ := Prod.mk.inj heq
  exact Nat.add_lt_add_left (Device.effort_fire hfire) _

/-- By `pass` the time goes forwards, and nothing else changes. -/
theorem step_pass_eq_some (h : s.step (.pass instant) = some (s', es)) :
    s.now ≤ instant ∧ s' = { s with now := instant } ∧ es = [] := by
  obtain ⟨hle, heq⟩ := Option.ite_none_right_eq_some.mp h
  obtain ⟨rfl, rfl⟩ := Prod.mk.inj (Option.some.inj heq)
  exact ⟨hle, rfl, rfl⟩

/-- Time that passes (`pass`) does not raise the `effort`. -/
theorem effort_pass (h : s.step (.pass instant) = some (s', es)) : s'.effort ≤ s.effort := by
  obtain ⟨hle, rfl, -⟩ := step_pass_eq_some h
  exact Nat.add_le_add_left (s.device.effort_pass hle) _

/-- When the timer has been waited for (`nextInstant?`), less is left to do. -/
theorem effort_wait (h : s.nextInstant? = some instant) :
    s.step (.pass instant) = some ({ s with now := instant }, []) ∧
      effort { s with now := instant } < s.effort := by
  obtain ⟨hearliest, hlater⟩ := Option.filter_eq_some_iff.mp h
  have hlater : s.now < instant := by simpa using hlater
  refine ⟨if_pos (Nat.le_of_lt hlater), ?_⟩
  exact Nat.add_lt_add_left (s.device.effort_pass_earliest hearliest hlater) _

end Simulation

namespace Batch

/-! ## The thread of the batch -/

/-- The effort of a shutdown. -/
def shutdownEffort : Nat := (Closing.closing .metadata).effort

/-- The effort of what the thread of a batch has still to begin. Each request is begun and its
answer is taken; then all writes are waited for, and the journal is shut down. -/
def Point.effort (writes : Nat) : Point → Nat
  | .requesting i => (requestEffort + 2) * (writes - i) + shutdownEffort + 4
  | .awaitingAnswer i => (requestEffort + 2) * (writes - (i + 1)) + shutdownEffort + 5
  | .draining => shutdownEffort + 2
  | .closing _ => 1
  | .ended _ => 0

/-- The effort left in a batch. -/
def effort (b : Batch) : Nat := b.point.effort b.plan.writes + b.simulation.effort

variable {p : Plan} {as : List Action} {a : Action} {b b' : Batch} {log log' : List Event}

/-- The workers and the last caller are all that are ever `woken`. -/
theorem Run.woken_lt (h : Run p as b log) : b.simulation.journal.woken < wakeEffort := by
  obtain ⟨-, acts, hjournal, -⟩ := h.journal
  obtain ⟨n, last?, -, hcalled⟩ := h.stands.called
  exact hjournal.attended.woken_lt fun k caller => hcalled.isOver_of_lt

/-- A call that begins adds its `effort` to the journal. -/
private theorem effort_begin {s : Simulation} {j : Journal} {before after given : Nat}
    (h : j.effort = s.journal.effort + given) (hlt : after + given < before) :
    after + Simulation.effort { s with journal := j } < before + s.effort := by
  simp only [Simulation.effort, h]
  omega

/-- Every step lowers the `effort`, but for the passing of time, which does not raise it. -/
theorem Run.effort_step (h : Run p as b log) (hstep : b.step a = some (b', log')) :
    b'.effort + (if a.isPass then 0 else 1) ≤ b.effort := by
  have hwoken := (h.step hstep).woken_lt
  obtain ⟨hwired, acts, hjournal, -⟩ := h.journal
  have hadvance := h.advance hstep
  clear hstep
  cases hadvance with
  | world hy hstep =>
    refine (Nat.add_assoc ..).trans_le (Nat.add_le_add_left ?_ _)
    cases a with
    | own => cases hy
    | act d =>
      obtain rfl := Option.some.inj hy
      exact Simulation.effort_act hjournal.attended hwired.wired hstep hwoken
    | device th =>
      obtain rfl := Option.some.inj hy
      exact Simulation.effort_device hwired.sound hwired.clock hstep hwoken
    | fire =>
      obtain rfl := Option.some.inj hy
      exact Simulation.effort_fire hstep
    | pass instant =>
      obtain rfl := Option.some.inj hy
      exact (Nat.add_zero _).trans_le (Simulation.effort_pass hstep)
  -- The driver pays for the call that it begins out of the effort of its own point.
  | @request i hpoint hlt =>
    refine effort_begin (Journal.effort_submit_call ..) ?_
    rw [hpoint]
    have hleft : b.plan.writes - i = b.plan.writes - (i + 1) + 1 := by omega
    simp only [Point.effort, hleft, Nat.mul_succ]
    omega
  | await hpoint =>
    refine effort_begin (Journal.effort_call ..) ?_
    rw [hpoint]
    simp only [Point.effort, Caller.effort]
    omega
  | answered hpoint =>
    refine Nat.add_lt_add_right ?_ _
    rw [hpoint]
    exact Nat.lt_succ_self _
  | drained hpoint hanswer hopen =>
    have hclosing := b.simulation.journal.effort_setClosing (.closing .metadata)
    rw [hopen] at hclosing
    refine effort_begin hclosing ?_
    rw [hpoint]
    simp only [Point.effort, shutdownEffort]
    omega
  | done hpoint =>
    refine Nat.add_lt_add_right ?_ _
    rw [hpoint]
    exact Nat.one_pos

/-- The `effort` of a batch when it starts. -/
theorem effort_start (h : start p = .ok (b, log)) :
    b.effort = (requestEffort + 2) * p.writes + shutdownEffort + 4 + Stage.all.length := by
  obtain ⟨j, es, hjournal, rfl, -⟩ := start_eq_ok h
  obtain ⟨-, -, rfl, -⟩ := Journal.start_eq_ok hjournal
  have hdevice : p.device.effort 0 = 0 := Device.effort_create ..
  simp only [effort, Point.effort, Simulation.effort, Journal.effort_create, hdevice]
  rfl

/-- The steps of a run, but for the passing of time, and what is left make up no more than the
`effort` at the start. -/
theorem Run.countP_steps_le (h : Run p as b log) :
    as.countP (!·.isPass) + b.effort ≤ workLeft p := by
  induction h with
  | start hstart =>
    rw [effort_start hstart, workLeft]
    have hrequest : requestEffort = 154 := rfl
    have hshutdown : shutdownEffort = 42 := rfl
    have hstages : Stage.all.length = 3 := rfl
    simp only [List.countP_nil, hrequest, hshutdown, hstages]
    omega
  | @step as b b' log log' a hrun hstep ih =>
    have hlowers := hrun.effort_step hstep
    have hcount : [a].countP (!·.isPass) = if a.isPass then 0 else 1 := by
      cases hpass : a.isPass <;> simp [hpass]
    rw [List.countP_append, hcount]
    omega

end Batch

end WriteAhead
