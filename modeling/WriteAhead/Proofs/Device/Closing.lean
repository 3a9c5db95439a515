import Mathlib.Algebra.GroupWithZero.Nat
import Mathlib.Data.List.TakeWhile
import WriteAhead.Proofs.Device.Life

/-!
# A device that is dropped completes what is left

Nobody calls a device that has been dropped. What is left in it are the tokens on the timer, all due
at once, and those that the timer's thread has in its hands. Each step of that thread brings them
closer to their completion, so after a bounded number of steps the device is empty.

## Key results

- `IsClosing`: what a device that has been dropped looks like
- `IsClosing.step`: each step of the timer's thread shortens the work that is left
- `conserved_of_run?`: every token is in one place
- `emptied_of_drop`: a device that is dropped is emptied by the timer's thread
-/

namespace WriteAhead.Device

/-- The steps until a call that completes tokens returns: each token is noted and given back. -/
def Call.stepsLeft : Call → Nat
  | .finishing _ others _ => 2 * others.length + 2
  | .reporting _ others _ => 2 * others.length + 1
  | _ => 0

/-- A call has three steps at most for each token of its `batch`. -/
theorem Call.stepsLeft_le (c : Call) : c.stepsLeft ≤ 3 * c.batch.length := by
  cases c with
  | finishing t others released => simp only [stepsLeft, batch, List.length_cons]; omega
  | reporting t others released => simp only [stepsLeft, batch, List.length_cons]; omega
  | _ => exact Nat.zero_le _

namespace Life

variable {l l' : Life} {a : Action} {as : List Action} {hs : List Happening}

/-- The device has been dropped: nothing is held, everything on the timer is due, and only the
timer's thread is inside, completing tokens. -/
structure IsClosing (l : Life) : Prop where
  isDropped : l.isDropped = true
  held : l.device.held = []
  due : ∀ timer, l.device.timer? = some timer → timer.closing = true
  calls : l.device.calls = [] ∨
    ∃ c, l.device.calls = [(.timer, c)] ∧ c.isCompleting = true

/-- The steps of the timer's thread until nothing is left, at most: each token on the timer may be
taken alone. -/
def stepsLeft (l : Life) : Nat :=
  (l.device.calls.map (·.2.stepsLeft)).sum + 3 * l.device.scheduled.length

/-- If only the thread `timer` is inside, it completes tokens. -/
theorem calls_of_all_timer {d : Device} (hd : d.Sound) (htimer : ∀ x ∈ d.calls, x.1 = .timer) :
    d.calls = [] ∨ ∃ c, d.calls = [(.timer, c)] ∧ c.isCompleting = true := by
  match hcalls : d.calls with
  | [] => exact .inl rfl
  | [(th, c)] =>
    have hmem : (th, c) ∈ d.calls := hcalls ▸ List.mem_singleton_self _
    obtain rfl : th = .timer := htimer _ hmem
    exact .inr ⟨c, rfl, hd.timer c hmem⟩
  | x :: y :: rest =>
    have hx : x.1 = .timer := htimer x (hcalls ▸ List.mem_cons_self)
    have hy : y.1 = .timer := htimer y (hcalls ▸ List.mem_cons_of_mem _ List.mem_cons_self)
    have hthreads := hd.threads
    rw [hcalls] at hthreads
    simp [hx, hy] at hthreads

/-- A device that is dropped has only its timer's thread inside (`IsClosing`), and drops what it
holds. -/
theorem isClosing_of_drop (hd : l.device.Sound) (h : l.step .drop = some (l', hs)) :
    l'.IsClosing ∧ hs = l.device.held.map .dropped := by
  obtain ⟨⟨-, htimer⟩, heq⟩ := Option.ite_none_right_eq_some.mp h
  obtain ⟨rfl, rfl⟩ := Prod.mk.inj (Option.some.inj heq)
  have hcalls := calls_of_all_timer hd (by simpa using htimer)
  refine ⟨⟨rfl, rfl, fun timer htimer => ?_, hcalls⟩, rfl⟩
  obtain ⟨timer₀, -, rfl⟩ := Option.map_eq_some_iff.mp htimer
  rfl

/-- The timer's thread takes everything once `closing` is set: `takeDue` does not look at deadlines
then. -/
theorem takeDue_of_closing {timer : Timer} (h : timer.closing = true) (now : Instant) :
    (timer.takeDue now).1 = timer.pending.map (·.token) ∧
      (timer.takeDue now).2.pending = [] ∧ (timer.takeDue now).2.closing = true := by
  have hdue (e : Scheduled) : timer.isDue now e = true := by simp [Timer.isDue, h]
  refine ⟨?_, List.dropWhile_eq_nil_iff.mpr fun e _ => hdue e, h⟩
  rw [Timer.takeDue, List.takeWhile_eq_self_iff.mpr fun e _ => hdue e]

/-- The timer's thread has one step less to take after each: `stepsLeft` falls. -/
theorem IsClosing.step (hl : l.IsClosing) (h : l.step a = some (l', hs)) :
    l'.IsClosing ∧ issued hs = [] ∧ dropped hs = [] ∧
      l'.stepsLeft + (if a.isPass then 0 else 1) ≤ l.stepsLeft := by
  obtain ⟨hdropped, hheld, hdue, hcalls⟩ := hl
  cases a with
  -- A device that is dropped takes no calls any more.
  | issue th t => simp [Life.step, admits, hdropped] at h
  | hold op id => simp [Life.step, hdropped] at h
  | release th => simp [Life.step, admits, hdropped] at h
  | drop => simp [Life.step, hdropped] at h
  | pass instant =>
    obtain ⟨-, heq⟩ := Option.ite_none_right_eq_some.mp h
    obtain ⟨rfl, rfl⟩ := Prod.mk.inj (Option.some.inj heq)
    exact ⟨⟨hdropped, hheld, hdue, hcalls⟩, rfl, rfl, Nat.le_refl _⟩
  | fire =>
    obtain ⟨d', hfire, heq⟩ := Option.map_eq_some_iff.mp h
    obtain ⟨rfl, rfl⟩ := Prod.mk.inj heq
    obtain ⟨timer, t, others, htimer, hcall, htaken, rfl⟩ := fire_eq_some hfire
    -- The thread of the timer takes everything that is pending, due or not.
    obtain ⟨hall, hnone, hclosing⟩ := takeDue_of_closing (hdue timer htimer) l.now
    have hempty : l.device.calls = [] := by
      rcases hcalls with hcalls | ⟨c, hcalls, -⟩
      · exact hcalls
      · simp [call?, hcalls] at hcall
    refine ⟨⟨hdropped, hheld, ?_, .inr ⟨_, by rw [hempty]; rfl, rfl⟩⟩, rfl, rfl, ?_⟩
    · rintro _ ⟨⟩
      exact hclosing
    · have hlength : timer.pending.length = others.length + 1 := by
        simpa using congrArg List.length (hall.symm.trans htaken)
      simp [stepsLeft, scheduled, hempty, htimer, hnone, hlength, Call.stepsLeft, Action.isPass]
      omega
  | step th =>
    obtain ⟨⟨d', notices, given?⟩, hstep, heq⟩ := Option.map_eq_some_iff.mp h
    obtain ⟨rfl, rfl⟩ := Prod.mk.inj heq
    obtain ⟨c, hcall, hd'⟩ := Option.map_eq_some_iff.mp hstep
    -- What is left of the calls is the one of the timer, which completes a batch.
    rcases hcalls with hcalls | ⟨c', hcalls, hcompleting⟩
    · simp [call?, hcalls] at hcall
    have hmem := mem_calls_of_call? hcall
    rw [hcalls, List.mem_singleton] at hmem
    obtain ⟨rfl, rfl⟩ := Prod.mk.inj hmem
    rw [losing?_of_isCompleting hcall hcompleting, hcall]
    cases c with
    | finishing t others released =>
      obtain ⟨rfl, -, rfl⟩ := (Prod.mk.inj hd').imp_right Prod.mk.inj
      have hcalls' : ((l.device.note .completed t).goTo .timer
          (.reporting t others released)).calls = [(.timer, .reporting t others released)] := by
        simp [goTo, note, hcalls]
      refine ⟨⟨hdropped, hheld, hdue, .inr ⟨_, hcalls', rfl⟩⟩, rfl, rfl, ?_⟩
      simp only [stepsLeft, hcalls', hcalls]
      show 2 * others.length + 1 + 0 + 3 * l.device.scheduled.length + 1 ≤
        2 * others.length + 2 + 0 + 3 * l.device.scheduled.length
      omega
    | reporting t others released =>
      obtain ⟨rfl, -, rfl⟩ := (Prod.mk.inj hd').imp_right Prod.mk.inj
      cases others with
      | nil =>
        have hcalls' : (l.device.leave .timer).calls = [] := by simp [leave, hcalls]
        refine ⟨⟨hdropped, hheld, hdue, .inl hcalls'⟩, rfl, rfl, ?_⟩
        simp only [stepsLeft, finish, hcalls', hcalls]
        show 0 + 3 * l.device.scheduled.length + 1 ≤ 1 + 3 * l.device.scheduled.length
        omega
      | cons u others =>
        have hcalls' : (l.device.goTo .timer (.finishing u others released)).calls =
            [(.timer, .finishing u others released)] := by simp [goTo, hcalls]
        refine ⟨⟨hdropped, hheld, hdue, .inr ⟨_, hcalls', rfl⟩⟩, rfl, rfl, ?_⟩
        simp only [stepsLeft, finish, hcalls', hcalls]
        show 2 * others.length + 2 + 0 + 3 * l.device.scheduled.length + 1 ≤
          2 * (others.length + 1) + 1 + 0 + 3 * l.device.scheduled.length
        omega
    | _ => cases hcompleting

/-- The steps of the timer's thread are bounded by `stepsLeft`. -/
theorem IsClosing.run? (hl : l.IsClosing) (h : l.run? as = some (l', hs)) :
    l'.IsClosing ∧ issued hs = [] ∧ dropped hs = [] ∧
      as.countP (!·.isPass) + l'.stepsLeft ≤ l.stepsLeft := by
  induction as generalizing l hs with
  | nil =>
    obtain ⟨rfl, rfl⟩ := Prod.mk.inj (Option.some.inj h)
    exact ⟨hl, rfl, rfl, by simp⟩
  | cons a as ih =>
    obtain ⟨l₁, hs₁, hs₂, hstep, hrun, rfl⟩ := run?_cons h
    obtain ⟨hl₁, hissued₁, hdropped₁, hsteps₁⟩ := hl.step hstep
    obtain ⟨hl', hissued₂, hdropped₂, hsteps₂⟩ := ih hl₁ hrun
    refine ⟨hl', ?_, ?_, ?_⟩
    · rw [issued, List.filterMap_append, ← issued, ← issued, hissued₁, hissued₂, List.append_nil]
    · rw [dropped, List.filterMap_append, ← dropped, ← dropped, hdropped₁, hdropped₂,
        List.append_nil]
    · rw [List.countP_cons]
      cases hpass : a.isPass <;> simp only [hpass] at hsteps₁ ⊢ <;> simp at hsteps₁ ⊢ <;> omega

/-- The timer's thread can `fire` or step unless nothing is left. -/
theorem IsClosing.step_isSome (hl : l.IsClosing) (h : l.device.tokens ≠ []) :
    (l.step .fire).isSome = true ∨ (l.step (.step .timer)).isSome = true := by
  rcases hl.calls with hcalls | ⟨c, hcalls, -⟩
  · -- Then a token is on the timer, and it is due.
    left
    cases htimer : l.device.timer? with
    | none => simp [tokens, hcalls, hl.held, htimer] at h
    | some timer =>
      have hpending : timer.pending.map (·.token) ≠ [] := by
        simpa [tokens, hcalls, hl.held, htimer] using h
      have htaken := (takeDue_of_closing (hl.due timer htimer) l.now).1
      have hfire := fire_isSome htimer (by simp [call?, hcalls]) (htaken ▸ hpending)
      rwa [Life.step, Option.isSome_map]
  · right
    simp [Life.step, Device.step, call?, hcalls]

/-- What is left is in the `batch` of the timer's thread and on the timer. -/
theorem IsClosing.tokens_perm (hl : l.IsClosing) :
    l.device.tokens.Perm (l.device.inHands Call.batch ++ l.device.scheduled) := by
  have hincoming : l.device.inHands Call.incoming = [] := by
    rcases hl.calls with hcalls | ⟨c, hcalls, hcompleting⟩
    · rw [inHands, hcalls, List.flatMap_nil]
    · rw [inHands, hcalls, List.flatMap_singleton, Call.incoming_of_isCompleting hcompleting]
  have hhands := l.device.inHands_tokens_perm
  rw [hincoming, List.append_nil] at hhands
  rw [tokens_eq, hl.held, List.append_nil]
  exact hhands.append_right _

/-- What is left takes at most three steps for each token (`stepsLeft`). -/
theorem IsClosing.stepsLeft_le (hl : l.IsClosing) :
    l.stepsLeft ≤ 3 * (l.device.inHands Call.batch ++ l.device.scheduled).length := by
  rw [stepsLeft, List.length_append]
  rcases hl.calls with hcalls | ⟨c, hcalls, -⟩
  · simp [inHands, hcalls]
  · have hle := c.stepsLeft_le
    simp [inHands, hcalls]
    omega

/-- Every token that came to a device is in one place: it was given back, it is in the batch of
someone who completes it or in the hands of an issue that has not returned, it is held, it is on the
timer, or it was dropped, with the device or by an issue. -/
structure Conserved (l : Life) (hs : List Happening) : Prop where
  places : (issued hs).Perm (reported hs ++ l.device.inHands Call.batch ++
    l.device.inHands Call.incoming ++ l.device.held ++ l.device.scheduled ++ dropped hs)
  /-- Tokens are given back as often as they were noted as completed, apart from those that somebody
  is about to give back. -/
  completed : (completed hs).Perm (reported hs ++ l.device.noted)
  noted : l.device.noted.Sublist (l.device.inHands Call.batch)
  /-- The device has notes of what came and of what was completed, and of nothing else. -/
  events : l.device.events = hs.filterMap Happening.io?
  /-- No token is given back before it was noted as completed, or noted before it came. -/
  ordered : ∀ before, before <+: hs → ∀ t,
    (reported before).count t ≤ (Life.completed before).count t ∧
      (Life.completed before).count t ≤ (issued before).count t

/-- The history of a device accounts for what it has (`Conserved`). -/
theorem conserved_of_run? {last? : Option Instant} {latency : Span}
    {delays : List (Operation × Span)} {holds : List (Operation × WriteId)}
    (h : (createOn last? latency delays holds).run? as = some (l, hs)) : Conserved l hs := by
  obtain ⟨-, hflow⟩ := flow_of_run? (sound_createOn last? latency delays holds) h
  have htokens₀ : (createOn last? latency delays holds).device.tokens = [] :=
    tokens_create latency delays holds
  have hnoted₀ : (createOn last? latency delays holds).device.noted = [] := rfl
  have hhands := l.device.inHands_tokens_perm
  refine ⟨List.perm_iff_count.mpr fun t => ?_, List.perm_iff_count.mpr fun t => ?_,
    l.device.noted_sublist, hflow.events, fun before hbefore t => ?_⟩
  · have htokens := hflow.tokens t
    rw [htokens₀, tokens_eq] at htokens
    simp only [List.count_append, List.count_nil, hhands.count_eq] at htokens ⊢
    omega
  · simpa only [hnoted₀, List.count_append, List.count_nil, Nat.add_zero] using hflow.noted t
  · have hordered := hflow.ordered before hbefore t
    rw [htokens₀, hnoted₀] at hordered
    exact hordered

end Life

end WriteAhead.Device
