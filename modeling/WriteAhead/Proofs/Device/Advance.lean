import Mathlib.Data.List.Induction
import WriteAhead.Proofs.Device.Life

/-!
# What a thread does inside a device

A call into a device goes from one critical section to the next. `Section` lists the sections: what
each does to the device apart from its calls, and where the call goes on, if it does. `Advance` puts
it among the calls of the other threads, and `Life.Change` among everything else that can be done
with a device. What holds of every run follows from these by cases, without opening `step` again.

## Key results

- `Sound.advance_of_step`: a thread that goes on goes through one section of its call
- `Advance.call?_self`, `Advance.call?_of_ne`: only its own call changes
- `Life.change_of_step`: everything that can happen to a device
- `Life.run?_induction`: what holds of a new device and is kept by every action holds after a run
- `Life.seen_concat`: what is seen of a run grows with each action
-/

namespace WriteAhead.Device

/-- The call that completes tokens in order; none if there are none. -/
def Call.finish? (ts : List Token) (released : Bool) : Option Call :=
  match ts with
  | t :: others => some (.finishing t others released)
  | [] => none

/-- A critical section of a call: what the device is after it, apart from the calls, and how the
call goes on, if it does not return. -/
inductive Section (d : Device) (now : Instant) : Call → Device → Option Call → Prop where
  | held {t : Token} (h : (t.operation, t.writeId) ∈ d.holds) :
      Section d now (.testing t) d (some (.parking t))
  | unheld {t : Token} (h : (t.operation, t.writeId) ∉ d.holds) :
      Section d now (.testing t) d (some (.timing t))
  | parked {t : Token} : Section d now (.parking t) { d with held := d.held ++ [t] } none
  | undelayed {t : Token} {delays : List (Operation × Span)}
      (htake : (d.takeDelay t.operation).2 = { d with delays })
      (h : ((d.takeDelay t.operation).1.getD d.latency).isZero = true ∨ d.timer?.isNone = true) :
      Section d now (.timing t) { d with delays } (some (.finishing t [] false))
  | delayed {t : Token} {delays : List (Operation × Span)}
      (htake : (d.takeDelay t.operation).2 = { d with delays })
      (h : ((d.takeDelay t.operation).1.getD d.latency).isZero = false)
      (htimer : d.timer?.isSome = true) : Section d now (.timing t) { d with delays }
        (some (.scheduling t ((d.takeDelay t.operation).1.getD d.latency)))
  | scheduled {t : Token} {delay : Span} (hnames : d.names (now + delay.micros) = true) :
      Section d now (.scheduling t delay)
        { d with timer? := d.timer?.map (·.schedule (now + delay.micros) t) } none
  | lost {t : Token} {delay : Span} (hnames : d.names (now + delay.micros) = false) :
      Section d now (.scheduling t delay) d none
  | noted {t : Token} {others : List Token} {released : Bool} :
      Section d now (.finishing t others released) (d.note .completed t)
        (some (.reporting t others released))
  | given {t : Token} {others : List Token} {released : Bool} :
      Section d now (.reporting t others released) d (Call.finish? others released)
  | lifted : Section d now .lifting { d with holds := [] } (some .taking)
  | taken : Section d now .taking { d with held := [] } (Call.finish? d.held true)

/-- A thread goes through a section of its call, which stands among the calls of other threads. -/
inductive Advance (d : Device) (now : Instant) (th : Thread) :
    Call → Option Call → Device → Prop where
  | mk {c : Call} {c'? : Option Call} {d₁ : Device} {before after : List (Thread × Call)}
      (hsection : Section d now c d₁ c'?) (hcalls : d.calls = before ++ (th, c) :: after)
      (hother : ∀ x ∈ before ++ after, x.1 ≠ th) :
      Advance d now th c c'?
        { d₁ with calls := before ++ (c'?.map (th, ·)).toList ++ after }

variable {d d' : Device} {now : Instant} {th u : Thread} {c : Call} {c'? : Option Call}

/-- A section leaves the calls to `Advance`. -/
theorem Section.calls_eq {d₁ : Device} (h : Section d now c d₁ c'?) : d₁.calls = d.calls := by
  cases h <;> rfl

/-- A `goTo` puts the new point of the call in the place of the old one. -/
theorem goTo_eq_of_split {before after : List (Thread × Call)} (c' : Call)
    (hcalls : d.calls = before ++ (th, c) :: after) (hother : ∀ x ∈ before ++ after, x.1 ≠ th) :
    d.goTo th c' = { d with calls := before ++ [(th, c')] ++ after } := by
  have hgoTo := calls_goTo c' hcalls hother
  rw [List.append_assoc, List.singleton_append, ← hgoTo]
  rfl

/-- A `finish` puts the completion of its tokens in the place of the call, or nothing if there are
none. -/
theorem finish_eq_of_split {before after : List (Thread × Call)} (ts : List Token) (released : Bool)
    (hcalls : d.calls = before ++ (th, c) :: after) (hother : ∀ x ∈ before ++ after, x.1 ≠ th) :
    d.finish th ts released =
      { d with calls := before ++ ((Call.finish? ts released).map (th, ·)).toList ++ after } := by
  cases ts with
  | nil =>
    have hleave := calls_leave hcalls hother
    simp only [finish, Call.finish?, Option.map_none, Option.toList_none, List.append_nil, ← hleave]
    rfl
  | cons t others => exact goTo_eq_of_split _ hcalls hother

/-- A thread that goes on goes through one `Section` of its call. -/
theorem Sound.advance_of_step (hd : d.Sound) {notices : List Notice} {given? : Option Token}
    (h : d.step now th = some (d', notices, given?)) : ∃ c c'?, Advance d now th c c'? d' := by
  obtain ⟨c, hcall, heq⟩ := Option.map_eq_some_iff.mp h
  obtain ⟨before, after, hcalls, hother⟩ := hd.split hcall
  -- Each branch is one section, at the place where the call stands.
  have hgoTo {d₁ : Device} {c' : Call} (hsection : Section d now c d₁ (some c'))
      (heq : d₁.goTo th c' = d') : ∃ c c'?, Advance d now th c c'? d' := by
    rw [goTo_eq_of_split c' (hsection.calls_eq.trans hcalls) hother] at heq
    exact ⟨c, some c', heq ▸ .mk hsection hcalls hother⟩
  have hfinish {d₁ : Device} (ts : List Token) (released : Bool)
      (hsection : Section d now c d₁ (Call.finish? ts released))
      (heq : d₁.finish th ts released = d') : ∃ c c'?, Advance d now th c c'? d' := by
    rw [finish_eq_of_split ts released (hsection.calls_eq.trans hcalls) hother] at heq
    exact ⟨c, Call.finish? ts released, heq ▸ .mk hsection hcalls hother⟩
  cases c with
  | testing t =>
    dsimp only at heq
    split at heq
    · exact hgoTo (.held ‹_›) (Prod.mk.inj heq).1
    · exact hgoTo (.unheld ‹_›) (Prod.mk.inj heq).1
  | parking t => exact hfinish [] false .parked (Prod.mk.inj heq).1
  | timing t =>
    obtain ⟨delays, htake⟩ := d.takeDelay_eq t.operation
    have htimed : (d.time th t).1 = d' := (Prod.mk.inj heq).1
    simp only [time, htake] at htimed
    split at htimed
    · rename_i hzero
      exact hgoTo (.undelayed htake (Bool.or_eq_true_iff.mp hzero)) htimed
    · rename_i hzero
      rw [Bool.or_eq_true, not_or, Bool.not_eq_true, Bool.not_eq_true] at hzero
      exact hgoTo (.delayed htake hzero.1 (Option.isNone_eq_false_iff.mp hzero.2)) htimed
  | scheduling t delay =>
    dsimp only at heq
    split at heq
    · exact hfinish [] false (.scheduled ‹_›) (Prod.mk.inj heq).1
    · exact hfinish [] false (.lost (Bool.eq_false_iff.mpr ‹_›)) (Prod.mk.inj heq).1
  | finishing t others released => exact hgoTo .noted (Prod.mk.inj heq).1
  | reporting t others released => exact hfinish others released .given (Prod.mk.inj heq).1
  | lifting => exact hgoTo .lifted (Prod.mk.inj heq).1
  | taking => exact hfinish d.held true .taken (Prod.mk.inj heq).1

/-! ## The calls of threads -/

/-- The call of a thread is the one that stands in `calls` among those of other threads. -/
theorem call?_eq_of_split (c'? : Option Call) {before after : List (Thread × Call)}
    (hcalls : d.calls = before ++ (c'?.map (th, ·)).toList ++ after)
    (hother : ∀ x ∈ before ++ after, x.1 ≠ th) : d.call? th = c'? := by
  have hnone (xs : List (Thread × Call)) (hxs : ∀ x ∈ xs, x.1 ≠ th) :
      xs.find? (·.1 = th) = none := by simpa using hxs
  have hbefore := hnone before fun x hx => hother x (List.mem_append_left _ hx)
  have hafter := hnone after fun x hx => hother x (List.mem_append_right _ hx)
  rw [call?, hcalls, List.find?_append, List.find?_append, hbefore, hafter]
  cases c'? <;> simp

/-- The call of another thread is where it was in `calls`. -/
theorem call?_eq_of_split_of_ne (c'? : Option Call) {before after : List (Thread × Call)}
    (hcalls : d.calls = before ++ (c'?.map (th, ·)).toList ++ after) (hne : u ≠ th) :
    d.call? u = ((before ++ after).find? (·.1 = u)).map (·.2) := by
  have hskip : (c'?.map (th, ·)).toList.find? (·.1 = u) = none := by
    cases c'? <;> simp [Ne.symm hne]
  rw [call?, hcalls, List.find?_append, List.find?_append, hskip, List.find?_append,
    Option.or_none]

/-- After a `goTo` the call of the thread is at its new point. -/
theorem Sound.call?_goTo (hd : d.Sound) (h : d.call? th = some c) (c' : Call) :
    (d.goTo th c').call? th = some c' := by
  obtain ⟨before, after, hcalls, hother⟩ := hd.split h
  rw [goTo_eq_of_split c' hcalls hother]
  exact call?_eq_of_split (some c') (by simp) hother

namespace Advance

/-- A thread that goes on was inside: `call?` finds its call. -/
theorem call?_eq (h : Advance d now th c c'? d') : d.call? th = some c := by
  obtain ⟨-, hcalls, hother⟩ := h
  exact call?_eq_of_split (some c) (by simpa using hcalls) hother

/-- The `call?` of a thread that went on, if it has not returned. -/
theorem call?_self (h : Advance d now th c c'? d') : d'.call? th = c'? := by
  obtain ⟨-, -, hother⟩ := h
  exact call?_eq_of_split c'? rfl hother

/-- The calls of other threads stay, says `call?`. -/
theorem call?_of_ne (h : Advance d now th c c'? d') (hne : u ≠ th) : d'.call? u = d.call? u := by
  obtain ⟨-, hcalls, hother⟩ := h
  rw [call?_eq_of_split_of_ne c'? rfl hne,
    call?_eq_of_split_of_ne (some c) (by simpa using hcalls) hne]

/-- What the calls have in their hands before a `Section` and after it. -/
theorem inHands_eq (h : Advance d now th c c'? d') : ∃ before after : List (Thread × Call),
    ∀ f : Call → List Token,
      d.inHands f = before.flatMap (f ·.2) ++ f c ++ after.flatMap (f ·.2) ∧
        d'.inHands f =
          before.flatMap (f ·.2) ++ (c'?.map f).getD [] ++ after.flatMap (f ·.2) := by
  cases h with
  | @mk d₁ before after hsection hcalls hother =>
    refine ⟨before, after, fun f => ⟨by simp [inHands, hcalls], ?_⟩⟩
    cases c'? <;> simp [inHands]

end Advance

/-- A call that begins has its tokens in its hands (`inHands`). -/
theorem inHands_begin (hcalls : d'.calls = d.calls ++ [(th, c)]) (f : Call → List Token) :
    d'.inHands f = d.inHands f ++ f c := by
  rw [inHands, hcalls, List.flatMap_append, List.flatMap_singleton, inHands]

/-- A call that begins is the `call?` of its thread, and the calls of other threads stay. -/
theorem call?_begin (hcalls : d'.calls = d.calls ++ [(th, c)]) (hth : d.call? th = none)
    (u : Thread) : d'.call? u = if u = th then some c else d.call? u := by
  rw [call?, hcalls, List.find?_append]
  split
  · rename_i heq
    subst heq
    have hnone : d.calls.find? (·.1 = u) = none := by
      simpa [call?_eq_none_iff] using hth
    simp [hnone]
  · rename_i hne
    simp [call?, Ne.symm hne]

/-! ## The life of a device -/

namespace Life

/-- Something that happens to a device. -/
inductive Change (l : Life) : Action → Life → Prop where
  | issued {th : Thread} {t : Token} (hadmits : l.admits th = true) :
      Change l (.issue th t) { l with device := l.device.issue th t }
  | held {op : Operation} {id : WriteId} (hopen : l.isDropped = false) :
      Change l (.hold op id) { l with device := l.device.hold op id }
  | releasing {th : Thread} (hadmits : l.admits th = true) :
      Change l (.release th) { l with device := l.device.release th }
  | advanced {th : Thread} {c : Call} {c'? : Option Call} {d' : Device}
      (h : Advance l.device l.now th c c'? d') : Change l (.step th) { l with device := d' }
  | fired {d' : Device} (h : l.device.fire l.now = some d') : Change l .fire { l with device := d' }
  | passed {instant : Instant} (h : l.now ≤ instant) :
      Change l (.pass instant) { l with now := instant }
  | dropped (hopen : l.isDropped = false) (htimer : ∀ x ∈ l.device.calls, x.1 = .timer) :
      Change l .drop { l with device := l.device.close.1, isDropped := true }

variable {l l' s : Life} {a : Action} {as as' : List Action} {hs hs' : List Happening}

/-- What an action does to a device is a `Change`. -/
theorem change_of_step (hd : l.device.Sound) (h : l.step a = some (l', hs)) : Change l a l' := by
  cases a with
  | issue th t =>
    obtain ⟨hadmits, heq⟩ := Option.ite_none_right_eq_some.mp h
    obtain ⟨rfl, -⟩ := Prod.mk.inj (Option.some.inj heq)
    exact .issued hadmits
  | hold op id =>
    obtain ⟨hopen, heq⟩ := Option.ite_none_left_eq_some.mp h
    obtain ⟨rfl, -⟩ := Prod.mk.inj (Option.some.inj heq)
    exact .held (Bool.not_eq_true _ ▸ hopen)
  | release th =>
    obtain ⟨hadmits, heq⟩ := Option.ite_none_right_eq_some.mp h
    obtain ⟨rfl, -⟩ := Prod.mk.inj (Option.some.inj heq)
    exact .releasing hadmits
  | step th =>
    obtain ⟨⟨d', notices, given?⟩, hstep, heq⟩ := Option.map_eq_some_iff.mp h
    obtain ⟨rfl, -⟩ := Prod.mk.inj heq
    obtain ⟨c, c'?, hadvance⟩ := hd.advance_of_step hstep
    exact .advanced hadvance
  | fire =>
    obtain ⟨d', hfire, heq⟩ := Option.map_eq_some_iff.mp h
    obtain ⟨rfl, -⟩ := Prod.mk.inj heq
    exact .fired hfire
  | pass instant =>
    obtain ⟨hle, heq⟩ := Option.ite_none_right_eq_some.mp h
    obtain ⟨rfl, -⟩ := Prod.mk.inj (Option.some.inj heq)
    exact .passed hle
  | drop =>
    obtain ⟨⟨hopen, htimer⟩, heq⟩ := Option.ite_none_right_eq_some.mp h
    obtain ⟨rfl, -⟩ := Prod.mk.inj (Option.some.inj heq)
    exact .dropped hopen (by simpa using htimer)

/-- A thread that may call a device (`admits`) is not inside. -/
theorem admits_iff {th : Thread} : l.admits th = true ↔
    l.isDropped = false ∧ th ≠ .timer ∧ l.device.call? th = none := by
  simp [admits, and_assoc]

/-- Nothing but its own steps changes the `call?` of a thread. -/
theorem Change.call?_eq (h : Change l a l') {th : Thread} {c : Call} (ha : a ≠ .step th)
    (hcall : l.device.call? th = some c) : l'.device.call? th = some c := by
  -- No call of the thread begins.
  have hbegin {d' : Device} {u : Thread} {c' : Call}
      (hcalls : d'.calls = l.device.calls ++ [(u, c')])
      (hnone : l.device.call? u = none) : d'.call? th = some c := by
    rw [call?_begin hcalls hnone]
    split
    · rename_i heq
      rw [← heq, hcall] at hnone
      exact nomatch hnone
    · exact hcall
  cases h with
  | issued hadmits => exact hbegin rfl (admits_iff.mp hadmits).2.2
  | @held op id =>
    obtain ⟨holds, heq⟩ := l.device.hold_eq op id
    rw [heq]
    exact hcall
  | releasing hadmits => exact hbegin rfl (admits_iff.mp hadmits).2.2
  | advanced hadvance =>
    rw [hadvance.call?_of_ne fun heq => ha (heq ▸ rfl)]
    exact hcall
  | fired hfire =>
    obtain ⟨timer, t, others, -, hnone, -, rfl⟩ := fire_eq_some hfire
    exact hbegin rfl hnone
  | passed | dropped => exact hcall

/-- A device that is there (`isDropped` is not set) has not been dropped before. -/
theorem Change.open_of_open (h : Change l a l') (hopen : l'.isDropped = false) :
    l.isDropped = false := by
  cases h with
  | dropped => exact nomatch hopen
  | _ => exact hopen

/-- Every delay with which a call is about to schedule a token has a property. -/
def Delays (p : Span → Prop) (d : Device) : Prop :=
  ∀ th t delay, d.call? th = some (.scheduling t delay) → p delay

/-- A call schedules with the delay that it has chosen, after any `Change`. -/
theorem Delays.change {p : Span → Prop} (h : Delays p l.device) (hchange : Change l a l')
    (hp : ∀ op, ((l.device.takeDelay op).1.getD l.device.latency).isZero = false →
      p ((l.device.takeDelay op).1.getD l.device.latency)) : Delays p l'.device := by
  -- A call that begins does not schedule at once.
  have hbegin {d d' : Device} {th : Thread} {c : Call} (hd : Delays p d)
      (hcalls : d'.calls = d.calls ++ [(th, c)]) (hnone : d.call? th = none)
      (hc : ∀ t delay, c ≠ .scheduling t delay) : Delays p d' := by
    intro u t delay hcall
    rw [call?_begin hcalls hnone] at hcall
    split at hcall
    · exact absurd (Option.some.inj hcall) (hc t delay)
    · exact hd u t delay hcall
  cases hchange with
  | @issued th t hadmits =>
    have hnote : Delays p (l.device.note .issued t) := h
    exact hbegin hnote rfl (admits_iff.mp hadmits).2.2 nofun
  | @held op id =>
    obtain ⟨holds, heq⟩ := l.device.hold_eq op id
    rw [heq]
    exact h
  | releasing hadmits => exact hbegin h rfl (admits_iff.mp hadmits).2.2 nofun
  | fired hfire =>
    obtain ⟨timer, t, others, -, hnone, -, rfl⟩ := fire_eq_some hfire
    exact hbegin h rfl hnone nofun
  | passed | dropped => exact h
  | @advanced th c c'? d' hadvance =>
    intro u t delay hcall
    by_cases hu : u = th
    · subst hu
      have hnext := hadvance.call?_self.symm.trans hcall
      obtain ⟨hsection, -, -⟩ := hadvance
      cases hsection with
      | delayed htake hzero =>
        obtain ⟨-, rfl⟩ := Call.scheduling.inj (Option.some.inj hnext)
        exact hp _ hzero
      | @given _ others => cases others <;> exact nomatch hnext
      | taken => cases hheld : l.device.held <;> rw [hheld] at hnext <;> exact nomatch hnext
      | _ => exact nomatch hnext
    · exact h u t delay (hadvance.call?_of_ne hu ▸ hcall)

/-! ## Runs -/

/-- Two lists of actions are run one after the other by `run?`. -/
theorem run?_append : s.run? (as ++ as') =
    (s.run? as).bind fun (l, hs) => (l.run? as').map fun (l', hs') => (l', hs ++ hs') := by
  induction as generalizing s with
  | nil => simp [run?]
  | cons a as ih =>
    cases hstep : s.step a with
    | none => simp [run?, hstep]
    | some r =>
      cases hrun : r.1.run? as with
      | none => simp [run?, hstep, ih, hrun]
      | some r' => simp [run?, hstep, ih, hrun, Function.comp_def]

/-- A run that ends with an action is one that comes before it and the `step` of the action. -/
theorem run?_concat (h : s.run? (as ++ [a]) = some (l', hs')) :
    ∃ l hs hs₁, s.run? as = some (l, hs) ∧ l.step a = some (l', hs₁) ∧ hs' = hs ++ hs₁ := by
  rw [run?_append] at h
  obtain ⟨⟨l, hs⟩, hrun, h⟩ := Option.bind_eq_some_iff.mp h
  obtain ⟨⟨l₁, hs₁⟩, hlast, heq⟩ := Option.map_eq_some_iff.mp h
  obtain ⟨rfl, rfl⟩ := Prod.mk.inj heq
  obtain ⟨l₂, hs₂, hs₃, hstep, hnil, rfl⟩ := run?_cons hlast
  obtain ⟨rfl, rfl⟩ := Prod.mk.inj (Option.some.inj hnil)
  exact ⟨l, hs, hs₂, hrun, hstep, by rw [List.append_nil]⟩

/-- What holds at the beginning of a run and is kept by each action (`Change`), given the actions
before it, holds at the end: the induction that every invariant of a device goes by. -/
theorem run?_induction {P : List Action → Life → Prop} (hsound : s.device.Sound) (hstart : P [] s)
    (hchange : ∀ as l hs a l' hs', s.run? as = some (l, hs) → l.device.Sound → P as l →
      l.step a = some (l', hs') → Change l a l' → P (as ++ [a]) l')
    (h : s.run? as = some (l, hs)) : P as l := by
  induction as using List.reverseRecOn generalizing l hs with
  | nil =>
    obtain ⟨rfl, -⟩ := Prod.mk.inj (Option.some.inj h)
    exact hstart
  | append_singleton as a ih =>
    obtain ⟨l₁, hs₁, hs₂, hrun, hstep, rfl⟩ := run?_concat h
    have hl₁ := (flow_of_run? hsound hrun).1
    exact hchange as l₁ hs₁ a l hs₂ hrun hl₁ (ih hrun) hstep (change_of_step hl₁ hstep)

/-- What `f` sees of each action of a run, at the moment at which it is taken. -/
def seen {α : Type} (f : Life → Action → Option α) (l : Life) : List Action → List α
  | [] => []
  | a :: as => (f l a).toList ++ (l.step a).elim [] fun r => seen f r.1 as

/-- One more action adds what `seen` finds in it. -/
theorem seen_concat {α : Type} (f : Life → Action → Option α) (h : s.run? as = some (l, hs))
    (a : Action) : seen f s (as ++ [a]) = seen f s as ++ (f l a).toList := by
  induction as generalizing s hs with
  | nil =>
    obtain ⟨rfl, -⟩ := Prod.mk.inj (Option.some.inj h)
    cases hstep : s.step a <;> simp [seen, hstep]
  | cons b as ih =>
    obtain ⟨s₁, hs₁, hs₂, hstep, hrun, rfl⟩ := run?_cons h
    simp [seen, hstep, ih hrun]

end Life

end WriteAhead.Device
