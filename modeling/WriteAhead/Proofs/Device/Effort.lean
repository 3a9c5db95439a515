import Mathlib.Algebra.GroupWithZero.Nat
import WriteAhead.Proofs.Device.Calls

/-!
# The effort that is left in a device

Every token in a device has a bounded way out of it. `effort` weighs what is left: each call by how
far it has come, each token that is parked or on the timer, and the wait for the timer if nothing on
it is due. It falls with each critical section of a thread, with each batch that the timer takes,
and when the wait for the timer is over; time alone never makes it grow. A step that gives a token
back lowers it by more than others do, since the journal may then wake whoever waits for that token.

## Key results

- `Sound.effort_step`: a critical section lowers the effort
- `effort_fire`, `effort_pass`: so does the timer, and time does not raise it
-/

namespace WriteAhead.Device

/-- How much a step that may wake callers of the journal is worth. No more than four of them, the
workers and one caller, ever wait. -/
def wakeEffort : Nat := 5

/-- The effort left in a call. Each token is noted and given back, and one that is not to be
completed at once is scheduled before. -/
def Call.effort : Call → Nat
  | .testing _ => wakeEffort + 7
  | .timing _ => wakeEffort + 6
  | .scheduling .. => wakeEffort + 5
  | .parking _ => wakeEffort + 2
  | .finishing _ others _ => (wakeEffort + 1) * others.length + wakeEffort + 1
  | .reporting _ others _ => (wakeEffort + 1) * others.length + wakeEffort
  | .lifting => 2
  | .taking => 1

/-- The effort of issuing a token. -/
def issueEffort : Nat := wakeEffort + 7

/-- Whether something is on the timer and nothing on it is due. -/
def isWaiting (d : Device) (now : Instant) : Bool :=
  (d.timer?.bind (·.earliest?)).any fun t => decide (now < t)

/-- The effort left in a device. -/
def effort (d : Device) (now : Instant) : Nat :=
  (d.calls.map (·.2.effort)).sum + (wakeEffort + 1) * d.held.length +
    (wakeEffort + 3) * d.scheduledCount + (d.isWaiting now).toNat

variable {d d' : Device} {th : Thread} {c c' : Call} {t : Token} {now instant : Instant}

/-- There is nothing to do in a new device, so its `effort` is 0. -/
theorem effort_create (latency : Span) (delays : List (Operation × Span))
    (holds : List (Operation × WriteId)) (now : Instant) :
    (create latency delays holds).effort now = 0 := by
  simp only [effort, create, isWaiting, scheduledCount]
  split <;> rfl

/-- An issue adds `issueEffort`. -/
theorem effort_issue (d : Device) (th : Thread) (t : Token) (now : Instant) :
    (d.issue th t).effort now = d.effort now + issueEffort := by
  have hcalls : ((d.issue th t).calls.map (·.2.effort)).sum =
      (d.calls.map (·.2.effort)).sum + issueEffort := by
    simp [issue, note, Call.effort, issueEffort]
  have hrest : (d.issue th t).held = d.held ∧
      (d.issue th t).scheduledCount = d.scheduledCount ∧
      (d.issue th t).isWaiting now = d.isWaiting now := ⟨rfl, rfl, rfl⟩
  simp only [effort, hcalls, hrest]
  omega

/-! ## Critical sections -/

/-- A call that goes on has the `effort` of where it goes. -/
theorem Sound.effort_goTo (hd : d.Sound) (h : d.call? th = some c) (c' : Call) (now : Instant) :
    (d.goTo th c').effort now + c.effort = d.effort now + c'.effort := by
  obtain ⟨before, after, hcalls, hother⟩ := hd.split h
  have hrest : (d.goTo th c').held = d.held ∧ (d.goTo th c').scheduledCount = d.scheduledCount ∧
      (d.goTo th c').isWaiting now = d.isWaiting now := ⟨rfl, rfl, rfl⟩
  simp only [effort, hrest, calls_goTo c' hcalls hother, hcalls, List.map_append, List.map_cons,
    List.sum_append, List.sum_cons]
  omega

/-- A call that returns has no `effort` left. -/
theorem Sound.effort_leave (hd : d.Sound) (h : d.call? th = some c) (now : Instant) :
    (d.leave th).effort now + c.effort = d.effort now := by
  obtain ⟨before, after, hcalls, hother⟩ := hd.split h
  have hrest : (d.leave th).held = d.held ∧ (d.leave th).scheduledCount = d.scheduledCount ∧
      (d.leave th).isWaiting now = d.isWaiting now := ⟨rfl, rfl, rfl⟩
  simp only [effort, hrest, calls_leave hcalls hother, hcalls, List.map_append, List.map_cons,
    List.sum_append, List.sum_cons]
  omega

/-- A call that goes on to complete tokens in order has the `effort` of each. -/
theorem Sound.effort_finish (hd : d.Sound) (h : d.call? th = some c) (ts : List Token)
    (released : Bool) (now : Instant) :
    (d.finish th ts released).effort now + c.effort =
      d.effort now + (wakeEffort + 1) * ts.length := by
  cases ts with
  | nil => exact hd.effort_leave h now
  | cons t others =>
    rw [Device.finish, hd.effort_goTo h]
    simp only [Call.effort, List.length_cons, wakeEffort]
    omega

/-- A token that is scheduled adds its own `effort`, and perhaps a wait. -/
theorem effort_schedule {timer : Timer} (htimer : d.timer? = some timer) (deadline : Instant)
    (t : Token) (now : Instant) :
    effort { d with timer? := some (timer.schedule deadline t) } now ≤
      d.effort now + wakeEffort + 4 := by
  have hlength : (timer.schedule deadline t).pending.length = timer.pending.length + 1 :=
    (Timer.insert_perm _ timer.pending).length_eq
  have hwait := Bool.toNat_le
    (isWaiting { d with timer? := some (timer.schedule deadline t) } now)
  simp only [effort, scheduledCount, htimer, Option.map_some, Option.getD_some, hlength,
    wakeEffort] at hwait ⊢
  omega

/-- A token that is parked weighs less than the call that parks it. -/
theorem Sound.effort_park (hd : d.Sound) (h : d.call? th = some (.parking t)) (now : Instant) :
    (Device.leave { d with held := d.held ++ [t] } th).effort now + 1 = d.effort now := by
  have hd₁ : Sound { d with held := d.held ++ [t] } := hd.of_calls_eq rfl rfl
  have hcall₁ : call? { d with held := d.held ++ [t] } th = some (.parking t) := h
  have hleave := hd₁.effort_leave hcall₁ now
  have hheld : effort { d with held := d.held ++ [t] } now = d.effort now + wakeEffort + 1 := by
    simp [effort, scheduledCount, isWaiting, wakeEffort]
    omega
  simp only [Call.effort, hheld] at hleave
  omega

/-- A token whose delay is chosen is to be completed or to be scheduled, and each weighs less than
the choice. -/
theorem Sound.effort_time (hd : d.Sound) (h : d.call? th = some (.timing t)) (now : Instant) :
    (d.time th t).1.effort now + 1 ≤ d.effort now := by
  obtain ⟨delays, htime⟩ := d.time_cases th t
  have hd₁ : Sound { d with delays } := hd.of_calls_eq rfl rfl
  have hcall₁ : call? { d with delays } th = some (.timing t) := h
  have hsame : effort { d with delays } now = d.effort now := rfl
  rcases htime with htime | ⟨-, delay, htime⟩ <;> rw [htime]
  · have hfinish := hd₁.effort_finish hcall₁ [t] false now
    simp only [Call.effort, hsame, List.length_singleton] at hfinish
    omega
  · have hgoTo := hd₁.effort_goTo hcall₁ (.scheduling t delay) now
    simp only [Call.effort, hsame] at hgoTo
    omega

/-- A token on the timer, with the wait for it, weighs less than the call that schedules it. -/
theorem Sound.effort_scheduled {delay : Span} (hd : d.Sound)
    (h : d.call? th = some (.scheduling t delay)) (deadline now : Instant) :
    (Device.leave { d with timer? := d.timer?.map (·.schedule deadline t) } th).effort now + 1 ≤
      d.effort now := by
  obtain ⟨timer, htimer⟩ :=
    Option.isSome_iff_exists.mp (hd.timed th t delay (mem_calls_of_call? h))
  rw [htimer, Option.map_some]
  let d₁ : Device := { d with timer? := some (timer.schedule deadline t) }
  have hd₁ : d₁.Sound := hd.of_calls_eq rfl (by rw [htimer]; rfl)
  have hcall₁ : d₁.call? th = some (.scheduling t delay) := h
  have hleave := hd₁.effort_leave hcall₁ now
  have hschedule : d₁.effort now ≤ _ := effort_schedule htimer deadline t now
  show (d₁.leave th).effort now + 1 ≤ d.effort now
  simp only [Call.effort] at hleave
  omega

/-- Tokens that are parked weigh what they weigh when they are to be completed. -/
theorem Sound.effort_take (hd : d.Sound) (h : d.call? th = some .taking) (now : Instant) :
    (Device.finish { d with held := [] } th d.held true).effort now + 1 = d.effort now := by
  have hd₁ : Sound { d with held := [] } := hd.of_calls_eq rfl rfl
  have hcall₁ : call? { d with held := [] } th = some .taking := h
  have hfinish := hd₁.effort_finish hcall₁ d.held true now
  have hheld : effort { d with held := [] } now + (wakeEffort + 1) * d.held.length =
      d.effort now := by
    simp only [effort, scheduledCount, isWaiting, List.length_nil]
    omega
  simp only [Call.effort] at hfinish
  omega

/-- Each critical section of a thread lowers the `effort`, and one that gives a token back by
`wakeEffort`, which is what it may cost to wake somebody. -/
theorem Sound.effort_step (hd : d.Sound) {notices : List Notice} {given? : Option Token}
    (h : d.step now th = some (d', notices, given?)) :
    d'.effort now + (if given?.isSome then wakeEffort else 1) ≤ d.effort now := by
  obtain ⟨c, hcall, heq⟩ := Option.map_eq_some_iff.mp h
  -- One case for each point of a call, as in `turn_of_step`: what the section uses up is what the
  -- next point costs less.
  cases c with
  | testing t =>
    dsimp only at heq
    split at heq <;> obtain ⟨rfl, -, rfl⟩ := (Prod.mk.inj heq).imp_right Prod.mk.inj
    · have hgoTo := hd.effort_goTo hcall (.parking t) now
      simp only [Call.effort] at hgoTo
      simp only [Option.isSome_none, Bool.false_eq_true, if_false]
      omega
    · have hgoTo := hd.effort_goTo hcall (.timing t) now
      simp only [Call.effort] at hgoTo
      simp only [Option.isSome_none, Bool.false_eq_true, if_false]
      omega
  | parking t =>
    obtain ⟨rfl, -, rfl⟩ := (Prod.mk.inj heq).imp_right Prod.mk.inj
    exact Nat.le_of_eq (hd.effort_park hcall now)
  | timing t =>
    obtain ⟨rfl, -, rfl⟩ := (Prod.mk.inj heq).imp_right Prod.mk.inj
    exact hd.effort_time hcall now
  | scheduling t delay =>
    dsimp only at heq
    split at heq <;> obtain ⟨rfl, -, rfl⟩ := (Prod.mk.inj heq).imp_right Prod.mk.inj
    · exact hd.effort_scheduled hcall (now + delay.micros) now
    · -- A lost token leaves no work behind.
      have hleave := hd.effort_leave hcall now
      simp only [Call.effort] at hleave
      simp only [Option.isSome_none, Bool.false_eq_true, if_false]
      omega
  | finishing t others released =>
    obtain ⟨rfl, -, rfl⟩ := (Prod.mk.inj heq).imp_right Prod.mk.inj
    have hd₁ : Sound (d.note .completed t) := hd.of_calls_eq rfl rfl
    have hcall₁ : (d.note .completed t).call? th = some (.finishing t others released) := hcall
    have hgoTo := hd₁.effort_goTo hcall₁ (.reporting t others released) now
    have hsame : (d.note .completed t).effort now = d.effort now := rfl
    simp only [Call.effort, hsame] at hgoTo
    simp only [Option.isSome_none, Bool.false_eq_true, if_false]
    omega
  | reporting t others released =>
    obtain ⟨rfl, -, rfl⟩ := (Prod.mk.inj heq).imp_right Prod.mk.inj
    have hfinish := hd.effort_finish hcall others released now
    simp only [Call.effort] at hfinish
    simp only [Option.isSome_some, if_true]
    omega
  | lifting =>
    obtain ⟨rfl, -, rfl⟩ := (Prod.mk.inj heq).imp_right Prod.mk.inj
    have hd₁ : Sound { d with holds := [] } := hd.of_calls_eq rfl rfl
    have hcall₁ : call? { d with holds := [] } th = some .lifting := hcall
    have hgoTo := hd₁.effort_goTo hcall₁ .taking now
    have hsame : effort { d with holds := [] } now = d.effort now := rfl
    simp only [Call.effort, hsame] at hgoTo
    simp only [Option.isSome_none, Bool.false_eq_true, if_false]
    omega
  | taking =>
    obtain ⟨rfl, -, rfl⟩ := (Prod.mk.inj heq).imp_right Prod.mk.inj
    exact Nat.le_of_eq (hd.effort_take hcall now)

/-! ## The timer -/

/-- What `fire` takes is closer to its completion, even if the timer has to wait again. -/
theorem effort_fire (h : d.fire now = some d') : d'.effort now < d.effort now := by
  obtain ⟨timer, t, others, htimer, -, htaken, rfl⟩ := fire_eq_some h
  have hlength := congrArg List.length (timer.takeDue_append now)
  rw [htaken, List.length_append, List.length_map, List.length_map, List.length_cons] at hlength
  have hwait := Bool.toNat_le (isWaiting { d with
    timer? := some (timer.takeDue now).2
    calls := d.calls ++ [(.timer, .finishing t others false)] } now)
  simp only [effort, scheduledCount, htimer, Option.map_some, Option.getD_some, List.map_append,
    List.map_singleton, List.sum_append, List.sum_singleton, Call.effort, wakeEffort] at hwait ⊢
  omega

/-- While time passes nothing is added to the `effort`. -/
theorem effort_pass (d : Device) (h : now ≤ instant) : d.effort instant ≤ d.effort now := by
  have hwait : (d.isWaiting instant).toNat ≤ (d.isWaiting now).toNat := by
    unfold isWaiting
    cases d.timer?.bind (·.earliest?) with
    | none => exact Nat.le_refl _
    | some deadline =>
      simp only [Option.any_some]
      by_cases hlate : instant < deadline
      · simp [hlate, Nat.lt_of_le_of_lt h hlate]
      · simp [hlate]
  simp only [effort]
  omega

/-- When the `earliest?` deadline has come, the wait for it is over. -/
theorem effort_pass_earliest (d : Device) (h : d.timer?.bind (·.earliest?) = some instant)
    (hlater : now < instant) : d.effort instant < d.effort now := by
  have hbefore : d.isWaiting now = true := by rw [isWaiting, h]; simpa using hlater
  have hafter : d.isWaiting instant = false := by rw [isWaiting, h]; simp
  simp only [effort, hbefore, hafter, Bool.toNat_true, Bool.toNat_false]
  omega

end WriteAhead.Device
