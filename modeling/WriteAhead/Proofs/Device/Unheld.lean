import WriteAhead.Proofs.Device.Calls

/-!
# A device with nothing on hold

Where no operation is on hold, no token is parked. Then each token in the device is in the hands of
a call, which can go on, or on the timer, which takes it when it is due. So a device in which
nothing can go on has tokens only while its timer waits.

## Key results

- `Unheld.step`, `Unheld.fire`: no critical section parks a token
- `step_isSome`: a call into a device can go on
- `Unheld.tokens_eq_nil`: a device in which nothing can go on and that does not wait has no tokens
-/

namespace WriteAhead.Device

variable {d d' : Device} {th : Thread} {c c' : Call} {t : Token} {now : Instant}

/-- Nothing is on hold, nothing is parked, and no call is about to park anything. -/
structure Unheld (d : Device) : Prop where
  holds : d.holds = []
  held : d.held = []
  parking : ∀ th t, (th, Call.parking t) ∉ d.calls

theorem unheld_create (latency : Span) (delays : List (Operation × Span)) :
    (create latency delays []).Unheld := ⟨rfl, rfl, fun _ _ => List.not_mem_nil⟩

namespace Unheld

/-- Where no call is new, unless it is not at `parking`, nothing comes to be on hold. -/
private theorem of_calls_subset (h : d.Unheld)
    (hholds : d'.holds = d.holds) (hheld : d'.held = d.held)
    (hcalls : ∀ x ∈ d'.calls, x ∈ d.calls ∨ ∀ t, x.2 ≠ .parking t) : d'.Unheld := by
  refine ⟨hholds.trans h.holds, hheld.trans h.held, fun th t hmem => ?_⟩
  rcases hcalls _ hmem with hold | hnew
  · exact h.parking th t hold
  · exact hnew t rfl

/-- A call begins that parks nothing at once, so the device is `Unheld` still. -/
private theorem begin (h : d.Unheld) (hholds : d'.holds = d.holds) (hheld : d'.held = d.held)
    (hcalls : d'.calls = d.calls ++ [(th, c)]) (hc : ∀ t, c ≠ .parking t) : d'.Unheld := by
  refine h.of_calls_subset hholds hheld fun x hx => ?_
  rw [hcalls] at hx
  rcases List.mem_append.mp hx with hold | hnew
  · exact .inl hold
  · obtain rfl := List.mem_singleton.mp hnew
    exact .inr hc

theorem issue (h : d.Unheld) (th : Thread) (t : Token) : (d.issue th t).Unheld :=
  h.begin (c := .testing t) rfl rfl rfl (by simp)

theorem release (h : d.Unheld) (th : Thread) : (d.release th).Unheld :=
  h.begin (c := .lifting) rfl rfl rfl (by simp)

theorem fire (h : d.Unheld) (hfire : d.fire now = some d') : d'.Unheld := by
  obtain ⟨timer, t, others, -, -, -, rfl⟩ := fire_eq_some hfire
  exact h.begin (c := .finishing t others false) rfl rfl rfl (by simp)

/-- A call goes on to a point at which it parks nothing, so the device is `Unheld` still. -/
private theorem goTo (h : d.Unheld) (th : Thread) (hc : ∀ t, c ≠ .parking t) :
    (d.goTo th c).Unheld := by
  refine h.of_calls_subset rfl rfl fun x hx => ?_
  obtain ⟨y, hy, rfl⟩ := List.mem_map.mp hx
  dsimp only
  split
  · exact .inr hc
  · exact .inl hy

private theorem leave (h : d.Unheld) (th : Thread) : (d.leave th).Unheld :=
  h.of_calls_subset rfl rfl fun _ hx => .inl (List.mem_of_mem_filter hx)

/-- A call that completes tokens (`finish`) parks nothing. -/
private theorem finish (h : d.Unheld) (th : Thread) (ts : List Token) (released : Bool) :
    (d.finish th ts released).Unheld := by
  cases ts with
  | nil => exact h.leave th
  | cons t others => exact h.goTo th (by simp)

/-- No critical section of a thread parks a token: there are no `holds` that it could be tested
for. -/
theorem step (h : d.Unheld) {notices : List Notice} {given? : Option Token}
    (hstep : d.step now th = some (d', notices, given?)) : d'.Unheld := by
  -- What matters of a device are its holds, its parked tokens and its calls.
  have hsame (d₁ : Device) (hholds : d₁.holds = d.holds) (hheld : d₁.held = d.held)
      (hcalls : d₁.calls = d.calls) : d₁.Unheld :=
    h.of_calls_subset hholds hheld fun x hx => .inl (hcalls ▸ hx)
  obtain ⟨c, hcall, heq⟩ := Option.map_eq_some_iff.mp hstep
  cases c with
  | testing t =>
    dsimp only at heq
    rw [h.holds, if_neg List.not_mem_nil] at heq
    obtain ⟨rfl, -⟩ := Prod.mk.inj heq
    exact h.goTo th (by simp)
  | parking t => exact absurd (mem_calls_of_call? hcall) (h.parking th t)
  | timing t =>
    obtain ⟨delays, htime⟩ := d.time_cases th t
    have hdelays : Unheld { d with delays } := hsame _ rfl rfl rfl
    obtain ⟨htimed, -⟩ := Prod.mk.inj heq
    rcases htime with htime | ⟨-, delay, htime⟩ <;> obtain rfl := htimed.symm.trans htime
    · exact hdelays.finish th [t] false
    · exact hdelays.goTo th (by simp)
  | scheduling t delay =>
    dsimp only at heq
    split at heq <;> obtain ⟨rfl, -⟩ := Prod.mk.inj heq
    · have htimer : Unheld { d with
        timer? := d.timer?.map (·.schedule (now + delay.micros) t) } := hsame _ rfl rfl rfl
      exact htimer.leave th
    · exact h.leave th
  | finishing t others released =>
    obtain ⟨rfl, -⟩ := Prod.mk.inj heq
    have hnote : Unheld (d.note .completed t) := hsame _ rfl rfl rfl
    exact hnote.goTo th (by simp)
  | reporting t others released =>
    obtain ⟨rfl, -⟩ := Prod.mk.inj heq
    exact h.finish th others released
  | lifting =>
    obtain ⟨rfl, -⟩ := Prod.mk.inj heq
    have hlifted : Unheld { d with holds := [] } := hsame _ h.holds.symm rfl rfl
    exact hlifted.goTo th (by simp)
  | taking =>
    obtain ⟨rfl, -⟩ := Prod.mk.inj heq
    have htaken : Unheld { d with held := [] } := hsame _ rfl h.held.symm rfl
    exact htaken.finish th d.held true

end Unheld

/-- A thread with a call in `calls` can go on. -/
theorem step_isSome {x : Thread × Call} (h : x ∈ d.calls) (now : Instant) :
    (d.step now x.1).isSome = true := by
  cases hcall : d.call? x.1 with
  | none => exact absurd rfl (call?_eq_none_iff.mp hcall x h)
  | some c => rw [step, hcall]; rfl

/-- What is at the head of the timer is taken by `takeDue` when it is due. -/
private theorem takeDue_ne_nil {timer : Timer} {e : Scheduled} {rest : List Scheduled}
    (hpending : timer.pending = e :: rest) (hdue : e.deadline ≤ now) :
    (timer.takeDue now).1 ≠ [] := by
  simp [Timer.takeDue, hpending, Timer.isDue, hdue]

/-- If no thread is inside, nothing is taken from the timer and the timer does not wait, there is no
token in a device that is `Unheld`. -/
theorem Unheld.tokens_eq_nil (h : d.Unheld) (hcalls : d.calls = []) (hfire : d.fire now = none)
    (hwait : ∀ t, d.timer?.bind (·.earliest?) = some t → t ≤ now) : d.tokens = [] := by
  have hscheduled : d.scheduled = [] := by
    cases htimer : d.timer? with
    | none => rw [scheduled, htimer]; rfl
    | some timer =>
      cases hpending : timer.pending with
      | nil => rw [scheduled, htimer, Option.map_some, hpending]; rfl
      | cons e rest =>
        have hdue : e.deadline ≤ now :=
          hwait e.deadline (by rw [htimer, Option.bind_some, Timer.earliest?, hpending]; rfl)
        have hcall : d.call? .timer = none := by
          rw [call?_eq_none_iff, hcalls]
          exact fun x hx => absurd hx List.not_mem_nil
        have hsome := fire_isSome htimer hcall (takeDue_ne_nil hpending hdue)
        rw [hfire] at hsome
        cases hsome
  rw [tokens_eq, inHands, hcalls, h.held, hscheduled]
  rfl

end WriteAhead.Device
