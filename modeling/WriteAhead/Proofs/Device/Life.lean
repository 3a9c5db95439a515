import WriteAhead.Proofs.Device.Calls

/-!
# The life of a device

Threads issue tokens to a device, put operations on hold and release them; the timer's thread and
those inside go on; time passes. At last the device is dropped, once nobody but the timer's thread
is inside. That thread goes on until it has completed everything that is due.

A history says what happened to the tokens. It is balanced by what the device has at the end.

## Key results

- `Flow`: a history leads from one moment of a device to another
- `Flow.trans`: what happened until then, and what happened from then on
- `flow_of_run?`: whatever happens to a device, its history accounts for every token
- `last?_of_run?`: whatever happens to a device, its clock stays
-/

namespace WriteAhead.Device

/-- A device, a clock, and whether the device has been dropped. -/
structure Life where
  device : Device
  now : Instant := 0
  isDropped : Bool := false
  deriving DecidableEq

namespace Life

/-- Something that happens to a token. -/
inductive Happening where
  /-- The token comes to the device, which notes that. -/
  | issued (t : Token)
  /-- The device notes the token as completed. -/
  | completed (t : Token)
  /-- The device gives the token back. -/
  | reported (t : Token)
  /-- The token is dropped with the device. -/
  | dropped (t : Token)
  /-- The token is dropped by an issue that panics. -/
  | lost (t : Token)
  deriving DecidableEq

namespace Happening

/-- The token that is issued. -/
def issued? : Happening → Option Token
  | .issued t => some t
  | _ => none

/-- The token that is noted as completed. -/
def completed? : Happening → Option Token
  | .completed t => some t
  | _ => none

/-- The token that is given back. -/
def reported? : Happening → Option Token
  | .reported t => some t
  | _ => none

/-- The token that is dropped. -/
def dropped? : Happening → Option Token
  | .dropped t | .lost t => some t
  | _ => none

/-- The token that is dropped by an issue. -/
def lost? : Happening → Option Token
  | .lost t => some t
  | _ => none

/-- What the device notes. -/
def io? : Happening → Option IoEvent
  | .issued t => some ⟨.issued, t.writeId, t.operation⟩
  | .completed t => some ⟨.completed, t.writeId, t.operation⟩
  | _ => none

end Happening

/-- The tokens that came to the device. -/
def issued (hs : List Happening) : List Token := hs.filterMap Happening.issued?

/-- The tokens that were noted as completed. -/
def completed (hs : List Happening) : List Token := hs.filterMap Happening.completed?

/-- The tokens that were given back. -/
def reported (hs : List Happening) : List Token := hs.filterMap Happening.reported?

/-- The tokens that were dropped. -/
def dropped (hs : List Happening) : List Token := hs.filterMap Happening.dropped?

/-- The tokens that were dropped by issues. -/
def lost (hs : List Happening) : List Token := hs.filterMap Happening.lost?

/-- Something that can be done with a device. -/
inductive Action where
  /-- A thread issues a token. -/
  | issue (th : Thread) (t : Token)
  /-- An operation is put on hold. -/
  | hold (op : Operation) (id : WriteId)
  /-- A thread releases every held operation. -/
  | release (th : Thread)
  /-- A thread inside the device goes on. -/
  | step (th : Thread)
  /-- The timer takes what is due. -/
  | fire
  /-- Time passes, up to an instant. -/
  | pass (instant : Instant)
  /-- The device is dropped. -/
  | drop
  deriving DecidableEq

/-- Whether only time passes. -/
def Action.isPass : Action → Bool
  | .pass _ => true
  | _ => false

/-- Whether a thread may call the device: there is one, and the thread is not inside. -/
def admits (l : Life) (th : Thread) : Bool :=
  !l.isDropped && th ≠ .timer && (l.device.call? th).isNone

/-- What an action does to a device and what happens to tokens by it; none if it is impossible. -/
def step (l : Life) : Action → Option (Life × List Happening)
  | .issue th t =>
    if l.admits th then some ({ l with device := l.device.issue th t }, [.issued t]) else none
  | .hold op id =>
    if l.isDropped then none else some ({ l with device := l.device.hold op id }, [])
  | .release th =>
    if l.admits th then some ({ l with device := l.device.release th }, []) else none
  | .step th =>
    (l.device.step l.now th).map fun (device, _, given?) =>
      ({ l with device }, (((l.device.call? th).bind Call.completing?).map .completed).toList ++
        (given?.map .reported).toList ++ ((l.device.losing? l.now th).map .lost).toList)
  | .fire => (l.device.fire l.now).map fun device => ({ l with device }, [])
  | .pass instant => if l.now ≤ instant then some ({ l with now := instant }, []) else none
  | .drop =>
    -- Whoever drops the device is the last to have it: nobody else is inside.
    if l.isDropped = false ∧ l.device.calls.all (·.1 = .timer) then
      some ({ l with device := l.device.close.1, isDropped := true },
        l.device.close.2.map .dropped)
    else none

/-- Takes the actions one after the other; none if one of them is not possible. -/
def run? (l : Life) : List Action → Option (Life × List Happening)
  | [] => some (l, [])
  | a :: as => (l.step a).bind fun (l', hs) => (l'.run? as).map fun (l'', hs') => (l'', hs ++ hs')

/-- A new device. -/
def create (latency : Span) (delays : List (Operation × Span))
    (holds : List (Operation × WriteId)) : Life :=
  { device := .create latency delays holds }

/-- A new device with a clock that ends, or with one that does not. -/
def createOn (last? : Option Instant) (latency : Span) (delays : List (Operation × Span))
    (holds : List (Operation × WriteId)) : Life :=
  { device := { Device.create latency delays holds with last? } }

theorem sound_createOn (last? : Option Instant) (latency : Span) (delays : List (Operation × Span))
    (holds : List (Operation × WriteId)) : (createOn last? latency delays holds).device.Sound :=
  (sound_create latency delays holds).of_calls_eq rfl rfl

variable {l l' l'' : Life} {a : Action} {as as' : List Action} {hs hs' : List Happening}

/-- The first of several actions is taken by `step`, and then the others. -/
theorem run?_cons (h : l.run? (a :: as) = some (l'', hs)) :
    ∃ l' hs₁ hs₂, l.step a = some (l', hs₁) ∧ l'.run? as = some (l'', hs₂) ∧ hs = hs₁ ++ hs₂ := by
  obtain ⟨⟨l', hs₁⟩, hstep, h⟩ := Option.bind_eq_some_iff.mp h
  obtain ⟨⟨l₂, hs₂⟩, hrun, heq⟩ := Option.map_eq_some_iff.mp h
  obtain ⟨rfl, rfl⟩ := Prod.mk.inj heq
  exact ⟨l', hs₁, hs₂, hstep, hrun, rfl⟩

/-! ## Histories -/

/-- A history leads from one moment of a device to another. Every token that was there or came is
given back, there or dropped; every one that was noted is given back or still to be given back; no
token is given back before it is noted, or noted before it comes; and as long as the device is
there, only issues drop tokens. -/
structure Flow (l : Life) (hs : List Happening) (l' : Life) : Prop where
  tokens : ∀ t, (issued hs).count t + l.device.tokens.count t =
    (reported hs).count t + l'.device.tokens.count t + (dropped hs).count t
  noted : ∀ t, (completed hs).count t + l.device.noted.count t =
    (reported hs).count t + l'.device.noted.count t
  events : l'.device.events = l.device.events ++ hs.filterMap Happening.io?
  ordered : ∀ before, before <+: hs → ∀ t,
    (reported before).count t ≤ (completed before).count t + l.device.noted.count t ∧
      (completed before).count t + l.device.noted.count t ≤
        (issued before).count t + l.device.tokens.count t
  kept : l'.isDropped = false → l.isDropped = false ∧ dropped hs = lost hs

/-- What two stretches do to the tokens, both of them together do: `Flow` is transitive. -/
theorem Flow.trans (h : Flow l hs l') (h' : Flow l' hs' l'') : Flow l (hs ++ hs') l'' := by
  refine ⟨fun t => ?_, fun t => ?_, ?_, fun before hbefore t => ?_, fun hopen => ?_⟩
  · have htokens := h.tokens t
    have htokens' := h'.tokens t
    simp only [issued, reported, dropped, List.filterMap_append, List.count_append] at *
    omega
  · have hnoted := h.noted t
    have hnoted' := h'.noted t
    simp only [completed, reported, List.filterMap_append, List.count_append] at *
    omega
  · rw [h'.events, h.events, List.filterMap_append, List.append_assoc]
  · -- A prefix of both histories ends in the first or covers it and goes on into the second.
    rcases List.prefix_or_prefix_of_prefix hbefore (List.prefix_append hs hs') with hle | ⟨hs₂, rfl⟩
    · exact h.ordered before hle t
    · have hordered := h'.ordered hs₂ ((List.prefix_append_right_inj hs).mp hbefore) t
      have htokens := h.tokens t
      have hnoted := h.noted t
      simp only [issued, completed, reported, List.filterMap_append, List.count_append] at *
      omega
  · obtain ⟨hopen', hkept'⟩ := h'.kept hopen
    obtain ⟨hopen, hkept⟩ := h.kept hopen'
    rw [dropped, lost, List.filterMap_append, List.filterMap_append, ← dropped, ← dropped, ← lost,
      ← lost, hkept, hkept']
    exact ⟨hopen, rfl⟩

/-- Nothing happens to any token: a `Flow` without notices. -/
theorem Flow.still (hopen : l'.isDropped = l.isDropped) (hnotes : l'.device.notes = l.device.notes)
    (htokens : l'.device.tokens.Perm l.device.tokens)
    (hnoted : l'.device.noted.Perm l.device.noted) : Flow l [] l' := by
  refine ⟨fun t => ?_, fun t => ?_, ?_, fun before hbefore t => ?_,
    fun h => ⟨hopen.symm.trans h, rfl⟩⟩
  · simp [issued, reported, dropped, htokens.count_eq]
  · simp [completed, reported, hnoted.count_eq]
  · simp [Device.events, hnotes]
  · obtain rfl := List.prefix_nil.mp hbefore
    simpa [issued, completed, reported] using l.device.count_noted_le t

/-- One thing happens to one token, and `isDropped` stays as it was. -/
theorem Flow.single {h : Happening} (hopen : l'.isDropped = l.isDropped)
    (hkept : dropped [h] = lost [h])
    (htokens : (issued [h] ++ l.device.tokens).Perm
      (dropped [h] ++ (reported [h] ++ l'.device.tokens)))
    (hnoted : (completed [h] ++ l.device.noted).Perm (reported [h] ++ l'.device.noted))
    (hevents : l'.device.events = l.device.events ++ [h].filterMap Happening.io?) :
    Flow l [h] l' := by
  have htokens (t : Token) := htokens.count_eq t
  have hnoted (t : Token) := hnoted.count_eq t
  simp only [List.count_append] at htokens hnoted
  refine ⟨fun t => ?_, hnoted, hevents, fun before hbefore t => ?_,
    fun h => ⟨hopen.symm.trans h, hkept⟩⟩
  · have := htokens t
    omega
  · have hle := l.device.count_noted_le t
    have hle' := l'.device.count_noted_le t
    rcases List.prefix_cons_iff.mp hbefore with rfl | ⟨rest, rfl, hrest⟩
    · simpa [issued, completed, reported] using hle
    · obtain rfl := List.prefix_nil.mp hrest
      have := htokens t
      have := hnoted t
      omega

/-- What happens to tokens in a critical section inside the device that loses none is a `Flow`. -/
theorem Flow.of_turn {noted? given? : Option Token} (hopen : l'.isDropped = l.isDropped)
    (h : Turn l.device l'.device noted? given?) :
    Flow l ((noted?.map .completed).toList ++ (given?.map .reported).toList) l' := by
  cases h with
  | keeps hnotes htokens hnoted => exact .still hopen hnotes htokens hnoted
  | notes hnotes htokens hnoted =>
    refine .single hopen rfl htokens.symm hnoted.symm ?_
    rw [Device.events, hnotes]
    exact List.reverse_cons
  | gives hnotes htokens hnoted =>
    refine .single hopen rfl htokens hnoted ?_
    rw [Device.events, hnotes]
    exact (List.append_nil _).symm

/-- Tokens that are `dropped` are not issued, noted or given back. -/
theorem filterMap_dropped {β : Type} {f : Happening → Option β} (hf : ∀ t, f (.dropped t) = none)
    (ts : List Token) : (ts.map Happening.dropped).filterMap f = [] := by
  simp [List.filterMap_map, hf]

theorem dropped_map (ts : List Token) : dropped (ts.map .dropped) = ts := by
  rw [dropped, List.filterMap_map]
  exact List.filterMap_some

/-- What is `held` is dropped with the device. -/
theorem flow_of_close (hclose : l'.device = l.device.close.1) (hdropped : l'.isDropped = true) :
    Flow l (l.device.held.map .dropped) l' := by
  have hnotes : l'.device.notes = l.device.notes := by rw [hclose]; rfl
  have hnoted : l'.device.noted = l.device.noted := by rw [hclose]; rfl
  refine ⟨fun t => ?_, fun t => ?_, ?_, fun before hbefore t => ?_,
    fun hopen => absurd hopen (by rw [hdropped]; exact nofun)⟩
  · have htokens := l.device.tokens_close.count_eq t
    rw [issued, reported, filterMap_dropped (fun _ => rfl), filterMap_dropped (fun _ => rfl),
      dropped_map, hclose, htokens, List.count_append]
    simp only [List.count_nil]
    omega
  · rw [completed, reported, filterMap_dropped (fun _ => rfl), filterMap_dropped (fun _ => rfl),
      hnoted]
  · rw [Device.events, hnotes, filterMap_dropped (fun _ => rfl), List.append_nil, Device.events]
  · obtain ⟨ts, -, rfl⟩ := List.prefix_map_iff.mp hbefore
    rw [issued, completed, reported, filterMap_dropped (fun _ => rfl),
      filterMap_dropped (fun _ => rfl), filterMap_dropped (fun _ => rfl)]
    simpa using l.device.count_noted_le t

/-- What an action does to the tokens is a `Flow`: one case for each action. -/
theorem flow_of_step (hd : l.device.Sound) (h : l.step a = some (l', hs)) :
    l'.device.Sound ∧ Flow l hs l' := by
  cases a with
  | issue th t =>
    obtain ⟨hadmits, heq⟩ := Option.ite_none_right_eq_some.mp h
    obtain ⟨rfl, rfl⟩ := Prod.mk.inj (Option.some.inj heq)
    simp only [admits, Bool.and_eq_true, decide_eq_true_eq, Option.isNone_iff_eq_none] at hadmits
    refine ⟨hd.issue hadmits.2 hadmits.1.2 t,
      .single rfl rfl (l.device.tokens_issue th t).symm ?_ ?_⟩
    · exact l.device.noted_issue th t ▸ .refl _
    · exact List.reverse_cons
  | hold op id =>
    obtain ⟨-, heq⟩ := Option.ite_none_left_eq_some.mp h
    obtain ⟨rfl, rfl⟩ := Prod.mk.inj (Option.some.inj heq)
    obtain ⟨holds, heq⟩ := l.device.hold_eq op id
    rw [heq]
    exact ⟨hd.of_calls_eq rfl rfl, .still rfl rfl (.refl _) (.refl _)⟩
  | release th =>
    obtain ⟨hadmits, heq⟩ := Option.ite_none_right_eq_some.mp h
    obtain ⟨rfl, rfl⟩ := Prod.mk.inj (Option.some.inj heq)
    simp only [admits, Bool.and_eq_true, decide_eq_true_eq, Option.isNone_iff_eq_none] at hadmits
    refine ⟨hd.release hadmits.2 hadmits.1.2, .still rfl rfl ?_ ?_⟩
    · exact l.device.tokens_release th ▸ .refl _
    · exact l.device.noted_release th ▸ .refl _
  | step th =>
    obtain ⟨⟨d', notices, given?⟩, hstep, heq⟩ := Option.map_eq_some_iff.mp h
    obtain ⟨rfl, rfl⟩ := Prod.mk.inj heq
    -- A step loses its token or is a `Turn`.
    cases hlosing : l.device.losing? l.now th with
    | none =>
      obtain ⟨hd', hturn⟩ := hd.turn_of_step hlosing hstep
      rw [Option.map_none, Option.toList_none, List.append_nil]
      exact ⟨hd', .of_turn rfl hturn⟩
    | some t =>
      obtain ⟨hd', rfl, hcompleting, hnotes, htokens, hnoted⟩ := hd.lost_of_step hlosing hstep
      rw [hcompleting]
      refine ⟨hd', .single rfl rfl htokens hnoted.symm ?_⟩
      rw [Device.events, hnotes]
      exact (List.append_nil _).symm
  | fire =>
    obtain ⟨d', hfire, heq⟩ := Option.map_eq_some_iff.mp h
    obtain ⟨rfl, rfl⟩ := Prod.mk.inj heq
    refine ⟨hd.fire hfire, .still rfl (notes_fire hfire) (tokens_fire hfire) ?_⟩
    exact noted_fire hfire ▸ .refl _
  | pass instant =>
    obtain ⟨-, heq⟩ := Option.ite_none_right_eq_some.mp h
    obtain ⟨rfl, rfl⟩ := Prod.mk.inj (Option.some.inj heq)
    exact ⟨hd, .still rfl rfl (.refl _) (.refl _)⟩
  | drop =>
    obtain ⟨-, heq⟩ := Option.ite_none_right_eq_some.mp h
    obtain ⟨rfl, rfl⟩ := Prod.mk.inj (Option.some.inj heq)
    exact ⟨hd.close, flow_of_close rfl rfl⟩

/-- Whatever happens to a device, its history accounts for every token (`Flow`). -/
theorem flow_of_run? (hd : l.device.Sound) (h : l.run? as = some (l', hs)) :
    l'.device.Sound ∧ Flow l hs l' := by
  induction as generalizing l hs with
  | nil =>
    obtain ⟨rfl, rfl⟩ := Prod.mk.inj (Option.some.inj h)
    exact ⟨hd, .still rfl rfl (.refl _) (.refl _)⟩
  | cons a as ih =>
    obtain ⟨l₁, hs₁, hs₂, hstep, hrun, rfl⟩ := run?_cons h
    obtain ⟨hd₁, hflow⟩ := flow_of_step hd hstep
    obtain ⟨hd', hflow'⟩ := ih hd₁ hrun
    exact ⟨hd', hflow.trans hflow'⟩

/-! ## The clock -/

/-- No action changes the clock of a device, `last?`. -/
theorem last?_of_action (h : l.step a = some (l', hs)) : l'.device.last? = l.device.last? := by
  cases a with
  | issue | release | pass | drop =>
    obtain ⟨-, heq⟩ := Option.ite_none_right_eq_some.mp h
    obtain ⟨rfl, -⟩ := Prod.mk.inj (Option.some.inj heq)
    rfl
  | hold op id =>
    obtain ⟨-, heq⟩ := Option.ite_none_left_eq_some.mp h
    obtain ⟨rfl, -⟩ := Prod.mk.inj (Option.some.inj heq)
    obtain ⟨holds, heq⟩ := l.device.hold_eq op id
    rw [heq]
  | step th =>
    obtain ⟨⟨d', notices, given?⟩, hstep, heq⟩ := Option.map_eq_some_iff.mp h
    obtain ⟨rfl, -⟩ := Prod.mk.inj heq
    exact last?_of_step hstep
  | fire =>
    obtain ⟨d', hfire, heq⟩ := Option.map_eq_some_iff.mp h
    obtain ⟨rfl, -⟩ := Prod.mk.inj heq
    obtain ⟨timer, t, others, -, -, -, rfl⟩ := fire_eq_some hfire
    rfl

/-- Whatever happens to a device, the end of its clock, `last?`, stays. -/
theorem last?_of_run? (h : l.run? as = some (l', hs)) : l'.device.last? = l.device.last? := by
  induction as generalizing l hs with
  | nil =>
    obtain ⟨rfl, -⟩ := Prod.mk.inj (Option.some.inj h)
    rfl
  | cons a as ih =>
    obtain ⟨l₁, hs₁, hs₂, hstep, hrun, -⟩ := run?_cons h
    exact (ih hrun).trans (last?_of_action hstep)

/-- A token is `lost` by a thread that goes on. -/
theorem losing?_of_mem_lost (h : l.step a = some (l', hs)) {t : Token} (ht : t ∈ lost hs) :
    ∃ th, a = .step th ∧ l.device.losing? l.now th = some t := by
  cases a with
  | issue | release | pass =>
    obtain ⟨-, heq⟩ := Option.ite_none_right_eq_some.mp h
    obtain ⟨-, rfl⟩ := Prod.mk.inj (Option.some.inj heq)
    simp [lost, Happening.lost?] at ht
  | hold =>
    obtain ⟨-, heq⟩ := Option.ite_none_left_eq_some.mp h
    obtain ⟨-, rfl⟩ := Prod.mk.inj (Option.some.inj heq)
    exact absurd ht List.not_mem_nil
  -- What a step notes and gives is never a loss, so the loss is the one that `losing?` foretold.
  | step th =>
    obtain ⟨⟨d', notices, given?⟩, -, heq⟩ := Option.map_eq_some_iff.mp h
    obtain ⟨-, rfl⟩ := Prod.mk.inj heq
    refine ⟨th, rfl, ?_⟩
    rw [lost, List.filterMap_append, List.filterMap_append, List.mem_append, List.mem_append] at ht
    rcases ht with (ht | ht) | ht
    · cases hnoted : (l.device.call? th).bind Call.completing? <;> rw [hnoted] at ht <;> cases ht
    · cases given? <;> cases ht
    · simpa [Happening.lost?] using ht
  | fire =>
    obtain ⟨d', -, heq⟩ := Option.map_eq_some_iff.mp h
    obtain ⟨-, rfl⟩ := Prod.mk.inj heq
    exact absurd ht List.not_mem_nil
  | drop =>
    obtain ⟨-, heq⟩ := Option.ite_none_right_eq_some.mp h
    obtain ⟨-, rfl⟩ := Prod.mk.inj (Option.some.inj heq)
    rw [lost, filterMap_dropped fun _ => rfl] at ht
    exact absurd ht List.not_mem_nil

/-- A clock without a `last?` instant loses no token. -/
theorem lost_eq_nil_of_run? (hclock : l.device.last? = none) (h : l.run? as = some (l', hs)) :
    lost hs = [] := by
  induction as generalizing l hs with
  | nil =>
    obtain ⟨-, rfl⟩ := Prod.mk.inj (Option.some.inj h)
    rfl
  | cons a as ih =>
    obtain ⟨l₁, hs₁, hs₂, hstep, hrun, rfl⟩ := run?_cons h
    have hnone : lost hs₁ = [] := by
      refine List.eq_nil_iff_forall_not_mem.mpr fun t ht => ?_
      obtain ⟨th, -, hlosing⟩ := losing?_of_mem_lost hstep ht
      rw [losing?_of_last? hclock] at hlosing
      exact nomatch hlosing
    rw [lost, List.filterMap_append, ← lost, ← lost, hnone,
      ih ((last?_of_action hstep).trans hclock) hrun, List.append_nil]

end Life

end WriteAhead.Device
