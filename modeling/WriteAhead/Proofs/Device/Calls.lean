import Mathlib.Data.List.Perm.Basic
import Mathlib.Data.List.Nodup
import WriteAhead.Device.Basic

/-!
# What the calls into a device do to its tokens

A token that was issued stays with the device until a call gives it back: in the hands of a call,
parked, or on the timer. `Turn` lists what a critical section can do to the tokens and the notes. It
moves tokens, notes one as completed, or gives back one that is noted.

## Key results

- `Sound`: each thread has one call, and only a device with a timer schedules
- `Sound.turn_of_step`: what the next critical section of a thread does
- `tokens_issue`, `tokens_release`, `tokens_fire`: what the beginning of a call does
- `tokens_close`: what a device that is dropped takes with it
-/

namespace WriteAhead.Device

/-! ## Tokens in the hands of calls -/

/-- The tokens of a call that it is about to complete. -/
def Call.batch : Call → List Token
  | .finishing t others _ | .reporting t others _ => t :: others
  | _ => []

/-- The token of an issue that has not said yet when it completes. -/
def Call.incoming : Call → List Token
  | .testing t | .parking t | .timing t | .scheduling t _ => [t]
  | _ => []

/-- The token of a call that is noted as completed and not given back. -/
def Call.noted : Call → List Token
  | .reporting t _ _ => [t]
  | _ => []

/-- Whether a call completes tokens. -/
def Call.isCompleting : Call → Bool
  | .finishing .. | .reporting .. => true
  | _ => false

/-- The `tokens` of a call are those that it completes (`batch`) and that which it issues
(`incoming`). -/
theorem Call.tokens_eq (c : Call) : c.tokens = c.batch ++ c.incoming := by
  cases c <;> simp [tokens, batch, incoming]

theorem Call.incoming_of_isCompleting {c : Call} (h : c.isCompleting = true) :
    c.incoming = [] := by
  cases c <;> first | rfl | cases h

/-- What a call has `noted` and not given back is one of its `batch`. -/
theorem Call.noted_sublist (c : Call) : c.noted.Sublist c.batch := by
  cases c <;> simp [noted, batch]

variable {d d' : Device} {th : Thread} {c c' : Call} {t : Token} {now : Instant}

/-- What the calls have in their hands, as far as `f` asks for it. -/
def inHands (f : Call → List Token) (d : Device) : List Token := d.calls.flatMap (f ·.2)

/-- The tokens that are noted as completed and not given back. -/
def noted (d : Device) : List Token := d.inHands Call.noted

/-- The tokens on the timer, the first to fire first. -/
def scheduled (d : Device) : List Token :=
  (d.timer?.map fun timer => timer.pending.map (·.token)).getD []

/-- The `tokens` of a device are in the hands of calls, `held` or `scheduled`. -/
theorem tokens_eq (d : Device) : d.tokens = d.inHands Call.tokens ++ d.held ++ d.scheduled := rfl

theorem tokens_create (latency : Span) (delays : List (Operation × Span))
    (holds : List (Operation × WriteId)) : (create latency delays holds).tokens = [] := by
  simp only [tokens, create]
  split <;> rfl

/-- The tokens in the hands of calls are about to be completed (`Call.batch`) or have just been
issued (`Call.incoming`). -/
theorem inHands_tokens_perm (d : Device) :
    (d.inHands Call.tokens).Perm (d.inHands Call.batch ++ d.inHands Call.incoming) := by
  simp only [inHands, Call.tokens_eq]
  exact (List.flatMap_append_perm d.calls (Call.batch ·.2) (Call.incoming ·.2)).symm

/-- What is `noted` and not given back is in the hands of a call that completes it. -/
theorem noted_sublist (d : Device) : d.noted.Sublist (d.inHands Call.batch) := by
  unfold noted inHands
  induction d.calls with
  | nil => exact List.Sublist.refl _
  | cons x xs ih =>
    rw [List.flatMap_cons, List.flatMap_cons]
    exact (Call.noted_sublist x.2).append ih

/-- What is `noted` and not given back is with the device. -/
theorem count_noted_le (d : Device) (t : Token) : d.noted.count t ≤ d.tokens.count t := by
  rw [tokens_eq, List.append_assoc, List.count_append, d.inHands_tokens_perm.count_eq,
    List.count_append]
  have hle := d.noted_sublist.count_le t
  omega

/-! ## One call for each thread -/

/-- Each thread has one call. Only a device with a timer schedules, and the thread of the timer only
completes tokens. -/
structure Sound (d : Device) : Prop where
  threads : (d.calls.map Prod.fst).Nodup
  timed : ∀ th t delay, (th, Call.scheduling t delay) ∈ d.calls → d.timer?.isSome = true
  timer : ∀ c, (Thread.timer, c) ∈ d.calls → c.isCompleting = true

theorem sound_create (latency : Span) (delays : List (Operation × Span))
    (holds : List (Operation × WriteId)) : (create latency delays holds).Sound :=
  ⟨List.nodup_nil, nofun, nofun⟩

/-- What else a device has does not matter to whether it is `Sound`. -/
theorem Sound.of_calls_eq (hd : d.Sound) (hcalls : d'.calls = d.calls)
    (htimer : d'.timer?.isSome = d.timer?.isSome) : d'.Sound := by
  obtain ⟨hthreads, htimed, hcompleting⟩ := hd
  rw [← hcalls] at hthreads htimed hcompleting
  rw [← htimer] at htimed
  exact ⟨hthreads, htimed, hcompleting⟩

theorem mem_calls_of_call? (h : d.call? th = some c) : (th, c) ∈ d.calls := by
  obtain ⟨x, hfind, rfl⟩ := Option.map_eq_some_iff.mp h
  have hth : x.1 = th := by simpa using List.find?_some hfind
  exact hth ▸ List.mem_of_find?_eq_some hfind

theorem call?_eq_none_iff : d.call? th = none ↔ ∀ x ∈ d.calls, x.1 ≠ th := by
  simp [call?]

/-- A call that goes on (`goTo`) has a thread of its own as before. -/
theorem Sound.goTo (hd : d.Sound) (h : d.call? th = some c)
    (htimed : ∀ t delay, c' = .scheduling t delay → d.timer?.isSome = true)
    (htimer : c.isCompleting = true → c'.isCompleting = true) : (d.goTo th c').Sound := by
  have hmem {u : Thread} {c₁ : Call} (hin : (u, c₁) ∈ (d.goTo th c').calls) :
      u = th ∧ c₁ = c' ∨ (u, c₁) ∈ d.calls := by
    obtain ⟨⟨u', c₂⟩, hold, heq⟩ := List.mem_map.mp hin
    obtain ⟨rfl, rfl⟩ := Prod.mk.inj heq
    split
    · exact .inl ⟨‹_›, rfl⟩
    · exact .inr hold
  refine ⟨?_, fun u t delay hin => ?_, fun c₁ hin => ?_⟩
  · have hfst : (d.goTo th c').calls.map Prod.fst = d.calls.map Prod.fst := by
      simp [Device.goTo, Function.comp_def]
    exact hfst ▸ hd.threads
  · rcases hmem hin with ⟨-, heq⟩ | hin
    · exact htimed t delay heq.symm
    · exact hd.timed u t delay hin
  · rcases hmem hin with ⟨rfl, rfl⟩ | hin
    · exact htimer (hd.timer c (mem_calls_of_call? h))
    · exact hd.timer c₁ hin

theorem Sound.leave (hd : d.Sound) (th : Thread) : (d.leave th).Sound :=
  ⟨(List.filter_sublist.map Prod.fst).nodup hd.threads,
    fun u t delay hin => hd.timed u t delay (List.mem_of_mem_filter hin),
    fun c hin => hd.timer c (List.mem_of_mem_filter hin)⟩

/-- A call that goes on to complete tokens, or returns (`finish`), has a thread of its own as
before. -/
theorem Sound.finish (hd : d.Sound) (h : d.call? th = some c) (ts : List Token)
    (released : Bool) : (d.finish th ts released).Sound := by
  cases ts with
  | nil => exact hd.leave th
  | cons t others => exact hd.goTo h (by nofun) fun _ => rfl

/-- A call of a thread that is outside begins, and the device is `Sound` still. -/
theorem Sound.begin (hd : d.Sound) (hth : d.call? th = none)
    (htimed : ∀ t delay, c ≠ .scheduling t delay)
    (htimer : th = .timer → c.isCompleting = true) :
    Sound { d with calls := d.calls ++ [(th, c)] } := by
  refine ⟨?_, fun u t delay hin => ?_, fun c' hin => ?_⟩
  · rw [List.map_append, List.map_singleton, ← List.concat_eq_append, List.nodup_concat]
    refine ⟨fun hin => ?_, hd.threads⟩
    obtain ⟨x, hx, heq⟩ := List.mem_map.mp hin
    exact call?_eq_none_iff.mp hth x hx heq
  · rcases List.mem_append.mp hin with hin | hin
    · exact hd.timed u t delay hin
    · exact absurd (Prod.mk.inj (List.mem_singleton.mp hin)).2.symm (htimed t delay)
  · rcases List.mem_append.mp hin with hin | hin
    · exact hd.timer c' hin
    · obtain ⟨heq, rfl⟩ := Prod.mk.inj (List.mem_singleton.mp hin)
      exact htimer heq.symm

/-! ## What a call has in its hands -/

/-- The call of a thread stands in `calls` among those of other threads. Most of what follows is
read off this split of the list. -/
theorem Sound.split (hd : d.Sound) (h : d.call? th = some c) :
    ∃ before after, d.calls = before ++ (th, c) :: after ∧ ∀ x ∈ before ++ after, x.1 ≠ th := by
  obtain ⟨x, hfind, rfl⟩ := Option.map_eq_some_iff.mp h
  obtain ⟨hx, before, after, hcalls, hbefore⟩ := List.find?_eq_some_iff_append.mp hfind
  obtain rfl : x.1 = th := by simpa using hx
  refine ⟨before, after, hcalls, fun y hy => ?_⟩
  have hthreads := hd.threads
  rw [hcalls, List.map_append, List.map_cons, List.nodup_middle, List.nodup_cons] at hthreads
  rw [← List.map_append] at hthreads
  exact fun heq => hthreads.1 (heq ▸ List.mem_map_of_mem hy)

/-- The calls after one of them goes on (`goTo`). -/
theorem calls_goTo {before after : List (Thread × Call)} (c' : Call)
    (hcalls : d.calls = before ++ (th, c) :: after) (hother : ∀ x ∈ before ++ after, x.1 ≠ th) :
    (d.goTo th c').calls = before ++ (th, c') :: after := by
  have hsame (xs : List (Thread × Call)) (hxs : ∀ x ∈ xs, x.1 ≠ th) :
      (Device.goTo { d with calls := xs } th c').calls = xs := by
    refine (List.map_congr_left fun x hx => ?_).trans (List.map_id _)
    simp [hxs x hx]
  have hbefore := hsame before fun x hx => hother x (List.mem_append_left _ hx)
  have hafter := hsame after fun x hx => hother x (List.mem_append_right _ hx)
  simp only [Device.goTo] at hbefore hafter ⊢
  rw [hcalls, List.map_append, List.map_cons, hbefore, hafter, if_pos rfl]

/-- The calls after one of them returns (`leave`). -/
theorem calls_leave {before after : List (Thread × Call)}
    (hcalls : d.calls = before ++ (th, c) :: after) (hother : ∀ x ∈ before ++ after, x.1 ≠ th) :
    (d.leave th).calls = before ++ after := by
  show List.filter _ d.calls = _
  rw [hcalls, List.filter_append, List.filter_cons_of_neg (by simp), ← List.filter_append]
  exact List.filter_eq_self.mpr fun x hx => by simpa using hother x hx

/-- A call that goes on (`goTo`) trades what it has in its hands, and the others keep theirs. -/
theorem Sound.inHands_goTo (hd : d.Sound) (h : d.call? th = some c) (f : Call → List Token)
    (c' : Call) : (f c ++ (d.goTo th c').inHands f).Perm (f c' ++ d.inHands f) := by
  obtain ⟨before, after, hcalls, hother⟩ := hd.split h
  rw [inHands, inHands, calls_goTo c' hcalls hother, hcalls]
  simp only [List.flatMap_append, List.flatMap_cons]
  refine (List.perm_append_comm_assoc ..).trans ?_
  exact ((List.perm_append_comm_assoc ..).append_left _).trans (List.perm_append_comm_assoc ..)

/-- A call that returns (`leave`) leaves its tokens behind. -/
theorem Sound.inHands_leave (hd : d.Sound) (h : d.call? th = some c) (f : Call → List Token) :
    (d.inHands f).Perm (f c ++ (d.leave th).inHands f) := by
  obtain ⟨before, after, hcalls, hother⟩ := hd.split h
  rw [inHands, inHands, calls_leave hcalls hother, hcalls]
  simp only [List.flatMap_append, List.flatMap_cons]
  exact List.perm_append_comm_assoc ..

/-- A call that goes on to complete tokens in order, or returns if there are none (`finish`), has
those in its hands. -/
theorem Sound.inHands_finish (hd : d.Sound) (h : d.call? th = some c) {f : Call → List Token}
    {g : List Token → List Token} (hnil : g [] = []) {released : Bool}
    (hcons : ∀ t others, f (.finishing t others released) = g (t :: others)) (ts : List Token) :
    (f c ++ (d.finish th ts released).inHands f).Perm (g ts ++ d.inHands f) := by
  cases ts with
  | nil => rw [hnil]; exact (hd.inHands_leave h f).symm
  | cons t others => exact hcons t others ▸ hd.inHands_goTo h f (.finishing t others released)

/-- A `finish` changes the calls only. -/
theorem finish_eq (d : Device) (th : Thread) (ts : List Token) (released : Bool) :
    ∃ calls, d.finish th ts released = { d with calls } := by
  cases ts <;> exact ⟨_, rfl⟩

/-- What changes in the hands of calls changes among all `tokens`, as long as the lists of the
device stay. -/
private theorem tokens_perm {xs ys : List Token} (hheld : d'.held = d.held)
    (htimer : d'.timer? = d.timer?)
    (h : (xs ++ d'.inHands Call.tokens).Perm (ys ++ d.inHands Call.tokens)) :
    (xs ++ d'.tokens).Perm (ys ++ d.tokens) := by
  have hscheduled : d'.scheduled = d.scheduled := by rw [scheduled, htimer, scheduled]
  rw [tokens_eq, tokens_eq, hheld, hscheduled]
  simpa only [List.append_assoc] using h.append_right (d.held ++ d.scheduled)

/-- All `tokens`, when a call goes on to complete some in order. -/
theorem Sound.tokens_finish (hd : d.Sound) (h : d.call? th = some c) (ts : List Token)
    (released : Bool) : (c.tokens ++ (d.finish th ts released).tokens).Perm (ts ++ d.tokens) := by
  obtain ⟨calls, heq⟩ := d.finish_eq th ts released
  have hhands : (c.tokens ++ (d.finish th ts released).inHands Call.tokens).Perm
      (ts ++ d.inHands Call.tokens) :=
    hd.inHands_finish h (g := id) rfl (fun _ _ => rfl) ts
  exact tokens_perm (by rw [heq]) (by rw [heq]) hhands

/-- A `finish` notes none of its tokens yet. -/
theorem Sound.noted_finish (hd : d.Sound) (h : d.call? th = some c) (ts : List Token)
    (released : Bool) : (c.noted ++ (d.finish th ts released).noted).Perm d.noted :=
  hd.inHands_finish h (g := fun _ => []) rfl (fun _ _ => rfl) ts

/-- All `tokens`, when a call goes on. -/
theorem Sound.tokens_goTo (hd : d.Sound) (h : d.call? th = some c) (c' : Call) :
    (c.tokens ++ (d.goTo th c').tokens).Perm (c'.tokens ++ d.tokens) :=
  tokens_perm rfl rfl (hd.inHands_goTo h Call.tokens c')

/-- All `tokens`, when a call returns. -/
theorem Sound.tokens_leave (hd : d.Sound) (h : d.call? th = some c) :
    d.tokens.Perm (c.tokens ++ (d.leave th).tokens) := by
  show ([] ++ d.tokens).Perm _
  refine tokens_perm ?_ ?_ (hd.inHands_leave h Call.tokens) <;> rfl

/-! ## The timer -/

/-- A token that `insert` schedules is put among those on the timer. -/
theorem Timer.insert_perm (e : Scheduled) (pending : List Scheduled) :
    (Timer.insert e pending).Perm (e :: pending) := by
  induction pending with
  | nil => exact List.Perm.refl _
  | cons f rest ih =>
    rw [Timer.insert]
    split
    · exact List.Perm.refl _
    · exact (ih.cons f).trans (List.Perm.swap e f rest)

/-- The timer parts with what `takeDue` takes, and with nothing else. -/
theorem Timer.takeDue_append (timer : Timer) (now : Instant) :
    (timer.takeDue now).1 ++ (timer.takeDue now).2.pending.map (·.token) =
      timer.pending.map (·.token) := by
  rw [Timer.takeDue, ← List.map_append, List.takeWhile_append_dropWhile]

/-! ## Critical sections -/

/-- What a critical section does: tokens move inside the device, one is noted as completed, or one
that is noted is given back. The token that is noted and the one that is given back are named. -/
inductive Turn (d d' : Device) : Option Token → Option Token → Prop where
  | keeps (hnotes : d'.notes = d.notes) (htokens : d'.tokens.Perm d.tokens)
      (hnoted : d'.noted.Perm d.noted) : Turn d d' none none
  | notes {t : Token} (hnotes : d'.notes = ⟨.completed, t.writeId, t.operation⟩ :: d.notes)
      (htokens : d'.tokens.Perm d.tokens) (hnoted : d'.noted.Perm (t :: d.noted)) :
      Turn d d' (some t) none
  | gives {t : Token} (hnotes : d'.notes = d.notes) (htokens : d.tokens.Perm (t :: d'.tokens))
      (hnoted : d.noted.Perm (t :: d'.noted)) : Turn d d' none (some t)

/-- The token that a call notes next. -/
def Call.completing? : Call → Option Token
  | .finishing t .. => some t
  | _ => none

/-- Choosing a delay (`takeDelay`) uses one up and changes nothing else. -/
theorem takeDelay_eq (d : Device) (op : Operation) :
    ∃ delays, (d.takeDelay op).2 = { d with delays } := by
  unfold takeDelay
  split <;> exact ⟨_, rfl⟩

/-- A token whose delay is chosen is about to be scheduled or completed: `time` asks whether the
delay is zero. -/
theorem time_cases (d : Device) (th : Thread) (t : Token) : ∃ delays,
    (d.time th t).1 = Device.finish { d with delays } th [t] false ∨
      d.timer?.isSome = true ∧
        ∃ delay, (d.time th t).1 = Device.goTo { d with delays } th (.scheduling t delay) := by
  obtain ⟨delays, heq⟩ := d.takeDelay_eq t.operation
  refine ⟨delays, ?_⟩
  simp only [time, heq]
  split
  · exact .inl rfl
  · rename_i hdelay
    rw [Bool.or_eq_true, not_or, Bool.not_eq_true, Bool.not_eq_true] at hdelay
    exact .inr ⟨Option.isNone_eq_false_iff.mp hdelay.2, _, rfl⟩

/-- A call goes on with what it has in its hands, while the lists of the device stay: a `Turn` that
moves no token. -/
theorem Sound.turn_goTo {d₁ : Device} (hd₁ : d₁.Sound) (h : d₁.call? th = some c)
    (hnotes : d₁.notes = d.notes) (htokens₁ : d₁.tokens = d.tokens) (hnoted₁ : d₁.noted = d.noted)
    (htokens : c'.tokens = c.tokens) (hnoted : c'.noted = c.noted) :
    Turn d (d₁.goTo th c') none none := by
  have hhands := hd₁.tokens_goTo h c'
  have hnotes₁ := hd₁.inHands_goTo h Call.noted c'
  rw [htokens] at hhands
  rw [hnoted] at hnotes₁
  refine .keeps hnotes ?_ ?_
  · exact htokens₁ ▸ (List.perm_append_left_iff _).mp hhands
  · exact hnoted₁ ▸ (List.perm_append_left_iff _).mp hnotes₁

/-- A call that has put its token on a list returns: a `Turn` that moves no token either. -/
theorem Sound.turn_leave {d₁ : Device} (hd₁ : d₁.Sound) (h : d₁.call? th = some c)
    (hcalls : d₁.calls = d.calls) (hnotes : d₁.notes = d.notes)
    (htokens : d₁.tokens.Perm (c.tokens ++ d.tokens)) (hnoted : c.noted = []) :
    Turn d (d₁.leave th) none none := by
  have hhands : d₁.noted = d.noted := by rw [noted, inHands, hcalls, noted, inHands]
  refine .keeps hnotes ?_ ?_
  · exact (List.perm_append_left_iff _).mp ((hd₁.tokens_leave h).symm.trans htokens)
  · have hleft := (hd₁.inHands_leave h Call.noted).symm
    rw [hnoted] at hleft
    exact hhands ▸ hleft

/-- A parked token is among those that are `held`. -/
private theorem tokens_held_append (d : Device) (t : Token) :
    (tokens { d with held := d.held ++ [t] }).Perm (t :: d.tokens) := by
  simp only [tokens, List.append_assoc]
  exact (List.perm_middle.append_left _).trans List.perm_middle

/-- A token that `schedule` puts on the timer is one of the device. -/
private theorem tokens_schedule {timer : Timer} (htimer : d.timer? = some timer)
    (deadline : Instant) (t : Token) :
    (tokens { d with timer? := some (timer.schedule deadline t) }).Perm (t :: d.tokens) := by
  have hpending := ((Timer.insert_perm ⟨deadline, timer.nextSeq, t⟩ timer.pending).map (·.token))
  simp only [tokens, htimer, Option.map_some, Option.getD_some]
  exact (hpending.append_left _).trans List.perm_middle

/-- The tokens that a release takes are those that are `held`. -/
private theorem tokens_held_nil (d : Device) :
    d.tokens.Perm (d.held ++ tokens { d with held := [] }) := by
  simp only [tokens, List.append_assoc, List.append_nil]
  exact List.perm_append_comm_assoc ..

/-- A thread loses a token if it is at `scheduling` and the clock does not name (`names`) the
deadline. -/
theorem losing?_eq_some (h : d.losing? now th = some t) : ∃ delay,
    d.call? th = some (.scheduling t delay) ∧ d.names (now + delay.micros) = false := by
  unfold losing? at h
  split at h
  · rename_i t' delay hcall
    obtain ⟨hnames, heq⟩ := Option.ite_none_left_eq_some.mp h
    obtain rfl := Option.some.inj heq
    exact ⟨delay, hcall, Bool.eq_false_iff.mpr hnames⟩
  · exact nomatch h

/-- A thread that loses none schedules at an instant that the clock `names`. -/
theorem names_of_losing? (h : d.losing? now th = none) {delay : Span}
    (hcall : d.call? th = some (.scheduling t delay)) : d.names (now + delay.micros) = true := by
  rw [losing?, hcall] at h
  simpa using h

/-- A call that completes tokens (`isCompleting`) loses none. -/
theorem losing?_of_isCompleting (hcall : d.call? th = some c) (hc : c.isCompleting = true)
    (now : Instant) : d.losing? now th = none := by
  cases hlosing : d.losing? now th with
  | none => rfl
  | some t =>
    obtain ⟨delay, hcall', -⟩ := losing?_eq_some hlosing
    obtain rfl := Option.some.inj (hcall.symm.trans hcall')
    exact nomatch hc

/-- A clock without an end (`last?` is none) names every instant. -/
theorem names_of_last? (h : d.last? = none) (instant : Instant) : d.names instant = true := by
  rw [names, h]
  rfl

/-- A clock without a `last?` instant loses nothing. -/
theorem losing?_of_last? (h : d.last? = none) (now : Instant) (th : Thread) :
    d.losing? now th = none := by
  cases hlosing : d.losing? now th with
  | none => rfl
  | some t =>
    obtain ⟨delay, -, hnames⟩ := losing?_eq_some hlosing
    rw [names_of_last? h] at hnames
    exact nomatch hnames

/-- What the next critical section of a thread does that loses no token is a `Turn`. -/
theorem Sound.turn_of_step (hd : d.Sound) {notices : List Notice} {given? : Option Token}
    (hkept : d.losing? now th = none) (h : d.step now th = some (d', notices, given?)) :
    d'.Sound ∧ Turn d d' ((d.call? th).bind Call.completing?) given? := by
  obtain ⟨c, hcall, heq⟩ := Option.map_eq_some_iff.mp h
  rw [hcall]
  -- One case for each point of a call. A section first does its part of the work (`hd₁` is the
  -- soundness after it) and then moves the call on.
  cases c with
  | testing t =>
    dsimp only at heq
    split at heq <;> obtain ⟨rfl, -, rfl⟩ := (Prod.mk.inj heq).imp_right Prod.mk.inj
    · exact ⟨hd.goTo hcall nofun id, hd.turn_goTo hcall rfl rfl rfl rfl rfl⟩
    · exact ⟨hd.goTo hcall nofun id, hd.turn_goTo hcall rfl rfl rfl rfl rfl⟩
  | parking t =>
    obtain ⟨rfl, -, rfl⟩ := (Prod.mk.inj heq).imp_right Prod.mk.inj
    have hd₁ : Sound { d with held := d.held ++ [t] } := hd.of_calls_eq rfl rfl
    have hcall₁ : call? { d with held := d.held ++ [t] } th = some (.parking t) := hcall
    exact ⟨hd₁.leave th, hd₁.turn_leave hcall₁ rfl rfl (d.tokens_held_append t) rfl⟩
  | timing t =>
    obtain ⟨delays, htime⟩ := d.time_cases th t
    have hd₁ : Sound { d with delays } := hd.of_calls_eq rfl rfl
    have hcall₁ : call? { d with delays } th = some (.timing t) := hcall
    obtain ⟨htimed, -, rfl⟩ := (Prod.mk.inj heq).imp_right Prod.mk.inj
    rcases htime with htime | ⟨htimer, delay, htime⟩ <;> obtain rfl := htimed.symm.trans htime
    · exact ⟨hd₁.finish hcall₁ [t] false, hd₁.turn_goTo hcall₁ rfl rfl rfl rfl rfl⟩
    · exact ⟨hd₁.goTo hcall₁ (fun _ _ _ => htimer) id,
        hd₁.turn_goTo hcall₁ rfl rfl rfl rfl rfl⟩
  | scheduling t delay =>
    dsimp only at heq
    -- With `hkept` the deadline has a name, so the token is scheduled and not lost.
    rw [if_pos (names_of_losing? hkept hcall)] at heq
    obtain ⟨rfl, -, rfl⟩ := (Prod.mk.inj heq).imp_right Prod.mk.inj
    obtain ⟨timer, htimer⟩ :=
      Option.isSome_iff_exists.mp (hd.timed th t delay (mem_calls_of_call? hcall))
    rw [htimer, Option.map_some]
    let d₁ : Device := { d with timer? := some (timer.schedule (now + delay.micros) t) }
    have hd₁ : d₁.Sound := hd.of_calls_eq rfl (by rw [htimer]; rfl)
    have hcall₁ : d₁.call? th = some (.scheduling t delay) := hcall
    exact ⟨hd₁.leave th, hd₁.turn_leave hcall₁ rfl rfl (tokens_schedule htimer _ t) rfl⟩
  | finishing t others released =>
    obtain ⟨rfl, -, rfl⟩ := (Prod.mk.inj heq).imp_right Prod.mk.inj
    have hd₁ : Sound (d.note .completed t) := hd.of_calls_eq rfl rfl
    have hcall₁ : (d.note .completed t).call? th = some (.finishing t others released) := hcall
    refine ⟨hd₁.goTo hcall₁ nofun fun _ => rfl, .notes rfl ?_ ?_⟩
    · exact (List.perm_append_left_iff _).mp (hd.tokens_goTo hcall (.reporting t others released))
    · exact hd.inHands_goTo hcall Call.noted (.reporting t others released)
  | reporting t others released =>
    obtain ⟨rfl, -, rfl⟩ := (Prod.mk.inj heq).imp_right Prod.mk.inj
    obtain ⟨calls, hfinish⟩ := d.finish_eq th others released
    refine ⟨hd.finish hcall others released, .gives (by rw [hfinish]) ?_ ?_⟩
    · have hperm := hd.tokens_finish hcall others released
      exact ((List.perm_append_left_iff others).mp (List.perm_middle.trans hperm)).symm
    · exact (hd.noted_finish hcall others released).symm
  | lifting =>
    obtain ⟨rfl, -, rfl⟩ := (Prod.mk.inj heq).imp_right Prod.mk.inj
    have hd₁ : Sound { d with holds := [] } := hd.of_calls_eq rfl rfl
    have hcall₁ : call? { d with holds := [] } th = some .lifting := hcall
    exact ⟨hd₁.goTo hcall₁ nofun id, hd₁.turn_goTo hcall₁ rfl rfl rfl rfl rfl⟩
  | taking =>
    obtain ⟨rfl, -, rfl⟩ := (Prod.mk.inj heq).imp_right Prod.mk.inj
    have hd₁ : Sound { d with held := [] } := hd.of_calls_eq rfl rfl
    have hcall₁ : call? { d with held := [] } th = some .taking := hcall
    obtain ⟨calls, hfinish⟩ := finish_eq { d with held := [] } th d.held true
    have hperm := (hd₁.tokens_finish hcall₁ d.held true).trans d.tokens_held_nil.symm
    exact ⟨hd₁.finish hcall₁ d.held true,
      .keeps (by rw [hfinish]) hperm (hd₁.noted_finish hcall₁ d.held true)⟩

/-- The critical section of a thread that loses its token does nothing else: the thread is gone from
`calls`. -/
theorem Sound.lost_of_step (hd : d.Sound) {notices : List Notice} {given? : Option Token}
    (hlost : d.losing? now th = some t) (h : d.step now th = some (d', notices, given?)) :
    d'.Sound ∧ given? = none ∧ (d.call? th).bind Call.completing? = none ∧ d'.notes = d.notes ∧
      d.tokens.Perm (t :: d'.tokens) ∧ d'.noted.Perm d.noted := by
  obtain ⟨delay, hcall, hnames⟩ := losing?_eq_some hlost
  obtain ⟨c, hcall', heq⟩ := Option.map_eq_some_iff.mp h
  obtain rfl := Option.some.inj (hcall.symm.trans hcall')
  dsimp only at heq
  rw [if_neg (Bool.eq_false_iff.mp hnames)] at heq
  obtain ⟨rfl, -, rfl⟩ := (Prod.mk.inj heq).imp_right Prod.mk.inj
  rw [hcall]
  exact ⟨hd.leave th, rfl, rfl, rfl, hd.tokens_leave hcall,
    (hd.inHands_leave hcall Call.noted).symm⟩

/-- No critical section changes the end of the clock, `last?`. -/
theorem last?_of_step {notices : List Notice} {given? : Option Token}
    (h : d.step now th = some (d', notices, given?)) : d'.last? = d.last? := by
  obtain ⟨c, -, heq⟩ := Option.map_eq_some_iff.mp h
  -- Only `finish` is not a record update at sight.
  have hfinish (d : Device) (ts : List Token) (released : Bool) :
      (d.finish th ts released).last? = d.last? := by
    obtain ⟨calls, hfinish⟩ := d.finish_eq th ts released
    rw [hfinish]
  cases c with
  | testing t | scheduling t delay =>
    dsimp only at heq
    split at heq <;> obtain ⟨rfl, -⟩ := Prod.mk.inj heq <;> rfl
  | parking | finishing | lifting =>
    obtain ⟨rfl, -⟩ := Prod.mk.inj heq
    rfl
  | timing t =>
    obtain ⟨delays, htime⟩ := d.time_cases th t
    obtain ⟨htimed, -⟩ := Prod.mk.inj heq
    rcases htime with htime | ⟨-, delay, htime⟩ <;> obtain rfl := htimed.symm.trans htime
    · exact hfinish _ [t] false
    · rfl
  | reporting | taking =>
    obtain ⟨rfl, -⟩ := Prod.mk.inj heq
    exact hfinish ..

/-! ## The beginning of a call -/

/-- After `issue` the token is in the hands of the new call. -/
theorem tokens_issue (d : Device) (th : Thread) (t : Token) :
    (d.issue th t).tokens.Perm (t :: d.tokens) := by
  simp only [tokens, issue, note, List.flatMap_append, List.append_assoc]
  exact List.perm_middle

/-- No token is `noted` by an issue. -/
theorem noted_issue (d : Device) (th : Thread) (t : Token) : (d.issue th t).noted = d.noted := by
  simp [noted, inHands, issue, note, Call.noted]

theorem Sound.issue (hd : d.Sound) (hth : d.call? th = none) (hne : th ≠ .timer) (t : Token) :
    (d.issue th t).Sound := by
  have hd₁ : (d.note .issued t).Sound := hd.of_calls_eq rfl rfl
  exact hd₁.begin hth nofun fun h => absurd h hne

theorem tokens_release (d : Device) (th : Thread) : (d.release th).tokens = d.tokens := by
  simp [tokens, release, Call.tokens]

/-- No token is `noted` by a release that begins. -/
theorem noted_release (d : Device) (th : Thread) : (d.release th).noted = d.noted := by
  simp [noted, inHands, release, Call.noted]

theorem Sound.release (hd : d.Sound) (hth : d.call? th = none) (hne : th ≠ .timer) :
    (d.release th).Sound :=
  hd.begin hth nofun fun h => absurd h hne

/-- What is due goes into the hands of the timer's thread, which is then in the call
`completing`. -/
theorem fire_eq_some (h : d.fire now = some d') : ∃ timer t others, d.timer? = some timer ∧
    d.call? .timer = none ∧ (timer.takeDue now).1 = t :: others ∧
      d' = { d with
        timer? := some (timer.takeDue now).2
        calls := d.calls ++ [(.timer, .finishing t others false)] } := by
  obtain ⟨timer, htimer, h⟩ := Option.bind_eq_some_iff.mp h
  split at h
  · rename_i t others timer' hcall hdue
    refine ⟨timer, t, others, htimer, hcall, by rw [hdue], ?_⟩
    rw [hdue]
    exact (Option.some.inj h).symm
  · exact nomatch h

/-- The timer's thread can `fire` if something is due and it is done with the last. -/
theorem fire_isSome {timer : Timer} (htimer : d.timer? = some timer)
    (hcall : d.call? .timer = none) (hdue : (timer.takeDue now).1 ≠ []) :
    (d.fire now).isSome = true := by
  obtain ⟨t, others, hcons⟩ := List.exists_cons_of_ne_nil hdue
  have hpair : timer.takeDue now = (t :: others, (timer.takeDue now).2) := Prod.ext hcons rfl
  simp only [fire, htimer, Option.bind_some, hcall]
  rw [hpair]
  rfl

theorem notes_fire (h : d.fire now = some d') : d'.notes = d.notes := by
  obtain ⟨timer, t, others, -, -, -, rfl⟩ := fire_eq_some h
  rfl

/-- To `fire` moves what is due from the timer into hands, and loses none. -/
theorem tokens_fire (h : d.fire now = some d') : d'.tokens.Perm d.tokens := by
  obtain ⟨timer, t, others, htimer, -, hdue, rfl⟩ := fire_eq_some h
  have hpending := timer.takeDue_append now
  rw [hdue] at hpending
  simp only [tokens, htimer, Option.map_some, Option.getD_some, List.flatMap_append,
    List.flatMap_singleton, Call.tokens, ← hpending, List.append_assoc]
  exact (List.perm_append_comm_assoc ..).append_left _

/-- To take what is due has nothing `noted` that is not given back. -/
theorem noted_fire (h : d.fire now = some d') : d'.noted = d.noted := by
  obtain ⟨timer, t, others, -, -, -, rfl⟩ := fire_eq_some h
  simp [noted, inHands, Call.noted]

/-- A `fire` begins the one call of the timer's thread, which has no other. -/
theorem Sound.fire (hd : d.Sound) (h : d.fire now = some d') : d'.Sound := by
  obtain ⟨timer, t, others, htimer, hcall, -, rfl⟩ := fire_eq_some h
  have hd₁ : Sound { d with timer? := some (timer.takeDue now).2 } :=
    hd.of_calls_eq rfl (by rw [htimer]; rfl)
  have hcall₁ : call? { d with timer? := some (timer.takeDue now).2 } .timer = none := hcall
  exact hd₁.begin hcall₁ nofun fun _ => rfl

/-! ## Holds and the end -/

/-- A `hold` changes the holds only. -/
theorem hold_eq (d : Device) (op : Operation) (id : WriteId) :
    ∃ holds, d.hold op id = { d with holds } := by
  unfold hold
  split <;> exact ⟨_, rfl⟩

@[simp] theorem scheduled_close (d : Device) : d.close.1.scheduled = d.scheduled := by
  cases htimer : d.timer? <;> simp [scheduled, close, htimer]

/-- What is `held` goes with the device, and everything else stays. -/
theorem tokens_close (d : Device) : d.tokens.Perm (d.held ++ d.close.1.tokens) := by
  rw [tokens_eq d.close.1, scheduled_close]
  exact d.tokens_held_nil

theorem Sound.close (hd : d.Sound) : d.close.1.Sound :=
  hd.of_calls_eq rfl (by simp [Device.close])

end WriteAhead.Device
