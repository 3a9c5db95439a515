import Mathlib.Data.Prod.Lex
import WriteAhead.Proofs.Device.Closing
import WriteAhead.Proofs.Device.Delays

/-!
# The order in which a timer fires

Tokens are put on the timer at any time, and the timer's thread takes those that are due in batches
and completes them with the timer open to others. A token is put on the timer with a delay, so its
deadline is later than that of anything that was due before: what the thread has taken comes before
everything that it will ever take. So the tokens that were fired, those of the present batch and
those on the timer are at every moment all that was ever scheduled, in one order.

## Key results

- `Timer.pairwise_insert`, `Timer.takeDue_due`: the timer is kept in order, and what is taken is due
- `Keeps.change`: the order over all batches, kept by everything that can happen to a device
- `Lags.change`: with a latency alone, entries are scheduled in the order in which they fire
- `passage_delayed`: issues that do not overlap schedule one after the other
- `fires_in_order`: entries fire in the order of deadlines and numbers, none too early, and all of
  them if the device is dropped
-/

namespace WriteAhead.Device

/-! ## Entries on a timer -/

namespace Scheduled

/-- What decides when an entry fires: its deadline and then its number. -/
def key (e : Scheduled) : Lex (Instant × Nat) := toLex (e.deadline, e.seq)

variable {a b c : Scheduled}

theorem before_iff : a.before b = true ↔ a.key < b.key := by
  rw [key, key, Prod.Lex.toLex_lt_toLex]
  simp [before]

theorem before_trans (hab : a.before b = true) (hbc : b.before c = true) : a.before c = true :=
  before_iff.mpr ((before_iff.mp hab).trans (before_iff.mp hbc))

theorem before_of_deadline_lt (h : a.deadline < b.deadline) : a.before b = true :=
  before_iff.mpr (Prod.Lex.toLex_lt_toLex.mpr (.inl h))

/-- Of two entries with one `deadline` the one that was scheduled first fires before. -/
theorem before_of_seq_lt (h : a.deadline ≤ b.deadline) (hseq : a.seq < b.seq) :
    a.before b = true :=
  before_iff.mpr (Prod.Lex.toLex_lt_toLex.mpr (h.lt_or_eq.imp_right fun heq => ⟨heq, hseq⟩))

/-- Of two entries with different numbers one fires `before` the other. -/
theorem before_of_not_before (hseq : a.seq ≠ b.seq) (h : ¬ b.before a = true) :
    a.before b = true := by
  rw [before_iff] at *
  refine lt_of_le_of_ne (not_lt.mp h) fun heq => hseq ?_
  exact (Prod.mk.inj (toLex_inj.mp heq)).2

end Scheduled

/-- The entries fire in the order in which they are listed. -/
abbrev Ordered (es : List Scheduled) : Prop := es.Pairwise fun e e' => e.before e' = true

/-- The same entries, `Ordered`, are the same list. -/
theorem eq_of_ordered_of_perm {es es' : List Scheduled} (h : Ordered es) (h' : Ordered es')
    (hperm : es.Perm es') : es = es' := by
  refine hperm.eq_of_pairwise (fun a b _ _ hab hba => ?_) h h'
  exact absurd (Scheduled.before_iff.mp hab) (Scheduled.before_iff.mp hba).asymm

/-- A new entry has its place in the order that `insert` finds for it, since it has the last
number. -/
theorem Timer.pairwise_insert {e : Scheduled} {pending : List Scheduled} (h : Ordered pending)
    (hlast : ∀ f ∈ pending, f.seq < e.seq) : Ordered (Timer.insert e pending) := by
  induction pending with
  | nil => exact List.pairwise_singleton ..
  | cons f rest ih =>
    obtain ⟨hf, hrest⟩ := List.pairwise_cons.mp h
    rw [Timer.insert]
    split
    · rename_i hbefore
      refine List.pairwise_cons.mpr ⟨fun x hx => ?_, h⟩
      rcases List.mem_cons.mp hx with rfl | hx
      · exact hbefore
      · exact Scheduled.before_trans hbefore (hf x hx)
    · rename_i hbefore
      refine List.pairwise_cons.mpr ⟨fun x hx => ?_, ih hrest fun x hx => ?_⟩
      · rcases List.mem_cons.mp ((Timer.insert_perm e rest).mem_iff.mp hx) with rfl | hx
        · exact Scheduled.before_of_not_before (hlast f List.mem_cons_self).ne hbefore
        · exact hf x hx
      · exact hlast x (List.mem_cons_of_mem f hx)

/-- The entries that `takeDue` gives the timer's thread are due, and no others go. -/
theorem Timer.takeDue_due (timer : Timer) (now : Instant) : ∃ due : List Scheduled,
    (timer.takeDue now).1 = due.map (·.token) ∧
      due ++ (timer.takeDue now).2.pending = timer.pending ∧
      ∀ e ∈ due, timer.closing = true ∨ e.deadline ≤ now := by
  refine ⟨timer.pending.takeWhile (timer.isDue now), rfl, List.takeWhile_append_dropWhile,
    fun e he => ?_⟩
  have hdue := List.mem_takeWhile_imp he
  simpa [Timer.isDue] using hdue

/-- The entries on the timer, the first to fire first. -/
def pending (d : Device) : List Scheduled := (d.timer?.map (·.pending)).getD []

/-- The tokens of a call that it has still to note as completed. -/
def Call.unfired : Call → List Token
  | .finishing t others _ => t :: others
  | .reporting _ others _ => others
  | _ => []

/-- The tokens that the timer's thread has taken and has still to complete. -/
def unfired (d : Device) : List Token := ((d.call? .timer).map Call.unfired).getD []

theorem scheduled_eq (d : Device) : d.scheduled = d.pending.map (·.token) := by
  rw [scheduled, pending]
  cases d.timer? <;> rfl

/-- What was taken and is not fired (`unfired`) is in the call of the timer's thread. -/
theorem unfired_eq {d : Device} {c? : Option Call} (h : d.call? .timer = c?) :
    d.unfired = (c?.map Call.unfired).getD [] := by rw [unfired, h]

theorem Call.unfired_finish? (ts : List Token) (released : Bool) :
    ((Call.finish? ts released).map Call.unfired).getD [] = ts := by
  cases ts <;> rfl

/-- The timer's thread notes and gives back each token that is `unfired`, perhaps all but its last
one. -/
theorem Call.stepsLeft_le_unfired (c : Call) : c.stepsLeft ≤ 2 * c.unfired.length + 1 := by
  cases c with
  | finishing t others released => simp only [stepsLeft, unfired, List.length_cons]; omega
  | reporting t others released => simp only [stepsLeft, unfired]; omega
  | _ => exact Nat.zero_le _

/-- A device without tokens has nothing `unfired` in its hands and nothing `pending` on the
timer. -/
theorem unfired_and_pending_eq_nil {d : Device} (h : d.tokens = []) :
    d.unfired = [] ∧ d.pending = [] := by
  rw [tokens_eq, List.append_eq_nil_iff, List.append_eq_nil_iff, scheduled_eq,
    List.map_eq_nil_iff] at h
  refine ⟨?_, h.2⟩
  cases hcall : d.call? .timer with
  | none => exact unfired_eq hcall
  | some c =>
    have hc := List.flatMap_eq_nil_iff.mp h.1.1 _ (mem_calls_of_call? hcall)
    rw [unfired_eq hcall]
    cases c <;> first | rfl | exact nomatch hc

/-- The token of a call that has still to put it on the timer. -/
def Call.delayed : Call → List Token
  | .scheduling t _ => [t]
  | _ => []

theorem ofIssue_delayed : OfIssue Call.delayed := by
  intro c hc
  cases c <;> first | rfl | exact nomatch hc

namespace Life

/-! ## What is scheduled and what is fired -/

/-- The entry that an action puts on the timer. -/
def scheduled? (l : Life) : Action → Option Scheduled
  | .step th =>
    match l.device.call? th, l.device.timer? with
    | some (.scheduling t delay), some timer => some ⟨l.now + delay.micros, timer.nextSeq, t⟩
    | _, _ => none
  | _ => none

/-- A token that the timer's thread completes, and when. -/
structure Firing where
  token : Token
  instant : Instant
  isDropped : Bool
  deriving DecidableEq

/-- What the timer's thread completes by an action. -/
def firing? (l : Life) : Action → Option Firing
  | .step .timer =>
    ((l.device.call? .timer).bind Call.completing?).map fun t => ⟨t, l.now, l.isDropped⟩
  | _ => none

/-- An entry fires: not before its deadline, unless the device has been dropped. -/
structure Fires (e : Scheduled) (f : Firing) : Prop where
  token : f.token = e.token
  punctual : e.deadline ≤ f.instant ∨ f.isDropped = true

/-- What fires, entry by entry (`Fires`), are the tokens that were scheduled, in order. -/
theorem map_token_of_fires {es : List Scheduled} {fs : List Firing} (h : List.Forall₂ Fires es fs) :
    fs.map (·.token) = es.map (·.token) := by
  induction h with
  | nil => rfl
  | cons hfires _ ih => rw [List.map_cons, List.map_cons, hfires.token, ih]

variable {l l' s : Life} {a : Action} {as : List Action} {hs hs' : List Happening}

/-- A call that is not at `scheduling` puts nothing on the timer. -/
theorem scheduled?_eq_none {th : Thread} {c : Call} (h : l.device.call? th = some c)
    (hc : ∀ t delay, c ≠ .scheduling t delay) : l.scheduled? (.step th) = none := by
  cases c <;> simp_all [scheduled?]

/-- Other threads than `timer` fire nothing: what they complete was never on the timer. -/
theorem firing?_of_ne {th : Thread} (h : th ≠ .timer) : l.firing? (.step th) = none := by
  cases th with
  | timer => exact absurd rfl h
  | worker | operator => rfl

/-- The thread `timer` fires what it completes, at the time that it is. -/
theorem firing?_of_call {c : Call} (h : l.device.call? .timer = some c) :
    l.firing? (.step .timer) = c.completing?.map fun t => ⟨t, l.now, l.isDropped⟩ := by
  rw [firing?, h, Option.bind_some]

/-! ## What holds of every device -/

/-- The timer shuts with its device, and no token is scheduled for the instant at which it is. -/
structure Regular (l : Life) : Prop where
  isClosing : l.isDropped = true → l.IsClosing
  shut : ∀ timer, l.device.timer? = some timer → timer.closing = true → l.isDropped = true
  later : Delays (0 < ·.micros) l.device

/-- A new device is `Regular`: nobody is inside. -/
theorem regular_create (latency : Span) (delays : List (Operation × Span))
    (holds : List (Operation × WriteId)) : (create latency delays holds).Regular := by
  refine ⟨fun hdropped => absurd hdropped Bool.false_ne_true, fun timer htimer hc => ?_,
    fun th t delay hcall => absurd hcall.symm (Option.some_ne_none _)⟩
  simp only [create, Device.create] at htimer
  split at htimer
  · obtain rfl := Option.some.inj htimer
    exact absurd hc Bool.false_ne_true
  · cases htimer

/-- A thread at `scheduling` is not the timer's. -/
theorem ne_timer (hd : l.device.Sound) {th : Thread} {c : Call} (h : l.device.call? th = some c)
    (hc : c.isCompleting = false) : th ≠ .timer := by
  rintro rfl
  exact absurd (hd.timer c (mem_calls_of_call? h)) (by rw [hc]; exact nofun)

/-- Nobody is at `scheduling` after the device has been dropped. -/
theorem Regular.open_of_scheduling (hr : l.Regular) {th : Thread} {t : Token} {delay : Span}
    (h : l.device.call? th = some (.scheduling t delay)) : l.isDropped = false := by
  by_contra hdropped
  rw [Bool.not_eq_false] at hdropped
  have hmem := mem_calls_of_call? h
  rcases (hr.isClosing hdropped).calls with hcalls | ⟨c, hcalls, hc⟩
  · exact List.not_mem_nil (hcalls ▸ hmem)
  · obtain ⟨-, rfl⟩ := Prod.mk.inj (List.mem_singleton.mp (hcalls ▸ hmem))
    exact nomatch hc

/-- A device stays `Regular` after any `Change`. -/
theorem Regular.change (hr : l.Regular) (hd : l.device.Sound) (hstep : l.step a = some (l', hs))
    (h : Change l a l') : l'.Regular := by
  -- Once dropped a device only closes, and this needs the step itself and not only its change.
  have hclosing : l'.isDropped = true → l'.IsClosing := by
    intro hdropped
    cases h with
    | dropped hopen => exact (isClosing_of_drop hd hstep).1
    | _ => exact ((hr.isClosing hdropped).step hstep).1
  refine ⟨hclosing, ?_, ?_⟩
  · cases h with
    | @advanced th c c'? d' hadvance =>
      obtain ⟨hsection, -, -⟩ := hadvance
      intro timer htimer hc
      cases hsection with
      | scheduled =>
        obtain ⟨timer₀, htimer₀, rfl⟩ := Option.map_eq_some_iff.mp htimer
        exact hr.shut timer₀ htimer₀ hc
      | _ => exact hr.shut timer htimer hc
    | fired hfire =>
      obtain ⟨timer₀, t, others, htimer₀, -, -, rfl⟩ := fire_eq_some hfire
      rintro timer htimer hc
      obtain rfl := Option.some.inj htimer
      exact hr.shut timer₀ htimer₀ hc
    | dropped => exact fun _ _ _ => rfl
    | @held op id =>
      obtain ⟨holds, heq⟩ := l.device.hold_eq op id
      rw [heq]
      exact hr.shut
    | _ => exact hr.shut
  · refine hr.later.change h fun op hzero => ?_
    simpa [Span.isZero, Nat.pos_iff_ne_zero] using hzero

/-! ## The order over all batches -/

/-- What was scheduled is what was fired, what the timer's thread has taken and what is on the
timer, in one order. -/
structure Keeps (l : Life) (es : List Scheduled) (fs : List Firing)
    (fired taken : List Scheduled) : Prop where
  perm : (fired ++ taken ++ l.device.pending).Perm es
  ordered : Ordered (fired ++ taken ++ l.device.pending)
  fires : List.Forall₂ Fires fired fs
  unfired : l.device.unfired = taken.map (·.token)
  due : ∀ e ∈ fired ++ taken, e.deadline ≤ l.now ∨ l.isDropped = true
  numbered : es.map (·.seq) = List.range es.length
  next : ∀ timer, l.device.timer? = some timer → timer.nextSeq = es.length

namespace Keeps

variable {es fired taken : List Scheduled} {fs : List Firing}

/-- Nothing is scheduled, taken or fired at first. -/
theorem create (latency : Span) (delays : List (Operation × Span))
    (holds : List (Operation × WriteId)) :
    Keeps (Life.create latency delays holds) [] [] [] [] := by
  have htimer : (Life.create latency delays holds).device.timer? =
      if (!latency.isZero || delays.any (!·.2.isZero)) = true then some {} else none := rfl
  have hpending : (Life.create latency delays holds).device.pending = [] := by
    rw [pending, htimer]
    split <;> rfl
  refine ⟨by simp [hpending], by simp [hpending], .nil, rfl, by simp, rfl, fun timer h => ?_⟩
  rw [htimer] at h
  split at h
  · obtain rfl := Option.some.inj h
    rfl
  · exact nomatch h

/-- An action that schedules, takes and fires nothing keeps the entries in order. -/
theorem still (h : Keeps l es fs fired taken) (hpending : l'.device.pending = l.device.pending)
    (hunfired : l'.device.unfired = l.device.unfired)
    (htimer : l'.device.timer?.map (·.nextSeq) = l.device.timer?.map (·.nextSeq))
    (hnow : l.now ≤ l'.now) (hdropped : l.isDropped = true → l'.isDropped = true) :
    Keeps l' es fs fired taken := by
  refine ⟨hpending ▸ h.perm, hpending ▸ h.ordered, h.fires, hunfired ▸ h.unfired,
    fun e he => ?_, h.numbered, fun timer' heq => ?_⟩
  · exact (h.due e he).imp (fun hle => hle.trans hnow) hdropped
  · rw [heq, Option.map_some] at htimer
    obtain ⟨timer, heq', hseq⟩ := Option.map_eq_some_iff.mp htimer.symm
    exact hseq ▸ h.next timer heq'

/-- The `seq` of an entry counts those that were scheduled before. -/
theorem seq_lt (h : Keeps l es fs fired taken) {e : Scheduled} (he : e ∈ es) :
    e.seq < es.length := by
  have hmem := List.mem_map_of_mem (f := (·.seq)) he
  rwa [h.numbered, List.mem_range] at hmem

/-- A new entry comes after everything that was taken: all of that was due, and the new deadline is
later than `now`. -/
theorem schedule (h : Keeps l es fs fired taken) {e : Scheduled} {timer : Timer}
    (hopen : l.isDropped = false) (hlater : l.now < e.deadline) (hseq : e.seq = es.length)
    (htimer : l.device.timer? = some timer)
    (htimer' : l'.device.timer? =
      some { timer with pending := Timer.insert e timer.pending, nextSeq := timer.nextSeq + 1 })
    (hunfired : l'.device.unfired = l.device.unfired) (hnow : l'.now = l.now) :
    Keeps l' (es ++ [e]) fs fired taken := by
  have hpending : l.device.pending = timer.pending := by rw [pending, htimer]; rfl
  have hpending' : l'.device.pending = Timer.insert e timer.pending := by
    rw [pending, htimer']; rfl
  have hperm := h.perm
  have hordered := h.ordered
  rw [hpending] at hperm hordered
  obtain ⟨hbefore, hold, hcross⟩ := List.pairwise_append.mp hordered
  have hinsert := Timer.insert_perm e timer.pending
  -- The entry goes behind all of its deadline, since its number is the highest yet.
  refine ⟨?_, ?_, h.fires, hunfired ▸ h.unfired, fun x hx => ?_, ?_, ?_⟩
  · rw [hpending']
    refine ((hinsert.append_left (fired ++ taken)).trans List.perm_middle).trans ?_
    exact (hperm.cons e).trans (List.perm_append_singleton e es).symm
  · rw [hpending']
    refine List.pairwise_append.mpr ⟨hbefore, Timer.pairwise_insert hold fun f hf => ?_,
      fun x hx f hf => ?_⟩
    · rw [hseq]
      exact h.seq_lt (hperm.mem_iff.mp (List.mem_append_right (fired ++ taken) hf))
    · rcases List.mem_cons.mp (hinsert.mem_iff.mp hf) with rfl | hf
      · refine Scheduled.before_of_deadline_lt (lt_of_le_of_lt ?_ hlater)
        exact (h.due x hx).resolve_right (by rw [hopen]; exact nofun)
      · exact hcross x hx f hf
  · exact .inl (hnow ▸ (h.due x hx).resolve_right (by rw [hopen]; exact nofun))
  · rw [List.map_append, h.numbered, List.map_singleton, hseq, List.length_append,
      List.length_singleton, List.range_succ]
  · intro timer' heq
    rw [htimer'] at heq
    obtain rfl := Option.some.inj heq
    rw [List.length_append, List.length_singleton, ← h.next timer htimer]

/-- The timer's thread takes what is due (`takeDue`) from the front of the order. -/
theorem take (h : Keeps l es fs fired taken) {timer : Timer} (htimer : l.device.timer? = some timer)
    (hidle : l.device.unfired = []) (htimer' : l'.device.timer? = some (timer.takeDue l.now).2)
    (hunfired : l'.device.unfired = (timer.takeDue l.now).1) (hnow : l'.now = l.now)
    (hdropped : l'.isDropped = l.isDropped) (hshut : timer.closing = true → l.isDropped = true) :
    ∃ due, Keeps l' es fs fired due := by
  obtain ⟨due, htokens, happend, hdue⟩ := timer.takeDue_due l.now
  obtain rfl : taken = [] := by
    rw [h.unfired] at hidle
    exact List.map_eq_nil_iff.mp hidle
  have hpending : fired ++ due ++ l'.device.pending = fired ++ [] ++ l.device.pending := by
    rw [pending, pending, htimer, htimer', List.append_assoc, List.append_nil]
    exact congrArg (fired ++ ·) happend
  refine ⟨due, hpending ▸ h.perm, hpending ▸ h.ordered, h.fires, hunfired.trans htokens,
    fun e he => ?_, h.numbered, fun timer' heq => ?_⟩
  · rw [hnow, hdropped]
    rcases List.mem_append.mp he with he | he
    · exact h.due e (List.mem_append_left _ he)
    · exact (hdue e he).symm.imp_right hshut
  · rw [htimer'] at heq
    obtain rfl := Option.some.inj heq
    exact h.next timer htimer

/-- The timer's thread fires the first of the `unfired` tokens. -/
theorem fire (h : Keeps l es fs fired taken) {t : Token} {others : List Token}
    (hunfired : l.device.unfired = t :: others) (hunfired' : l'.device.unfired = others)
    (htimer : l'.device.timer? = l.device.timer?) (hnow : l'.now = l.now)
    (hdropped : l'.isDropped = l.isDropped) :
    ∃ fired' taken', Keeps l' es (fs ++ [⟨t, l.now, l.isDropped⟩]) fired' taken' := by
  rw [h.unfired] at hunfired
  obtain ⟨e, rest, rfl, rfl, rfl⟩ := List.map_eq_cons_iff.mp hunfired
  have hlist : fired ++ [e] ++ rest ++ l'.device.pending =
      fired ++ e :: rest ++ l.device.pending := by
    rw [pending, pending, htimer]
    simp
  refine ⟨fired ++ [e], rest, hlist ▸ h.perm, hlist ▸ h.ordered, ?_, hunfired', fun x hx => ?_,
    h.numbered, htimer ▸ h.next⟩
  · have hdue := h.due e (List.mem_append_right fired List.mem_cons_self)
    exact List.rel_append h.fires (.cons ⟨rfl, hdue⟩ .nil)
  · rw [hnow, hdropped]
    exact h.due x (by simpa using hx)

/-- A thread that goes through a section (`Advance`) which neither schedules nor fires keeps the
entries in order. -/
private theorem quiet (h : Keeps l es fs fired taken) {th : Thread} {c : Call} {c'? : Option Call}
    {d' : Device} (hadvance : Advance l.device l.now th c c'? d')
    (htimer : d'.timer? = l.device.timer?) (hc : ∀ t delay, c ≠ .scheduling t delay)
    (hfires : l.firing? (.step th) = none)
    (hunfired : { l with device := d' }.device.unfired = l.device.unfired) :
    ∃ fired' taken', Keeps { l with device := d' } (es ++ (l.scheduled? (.step th)).toList)
      (fs ++ (l.firing? (.step th)).toList) fired' taken' := by
  rw [scheduled?_eq_none hadvance.call?_eq hc, hfires, Option.toList_none, Option.toList_none,
    List.append_nil, List.append_nil]
  refine ⟨fired, taken, h.still ?_ hunfired ?_ le_rfl id⟩
  · exact congrArg (fun timer? : Option Timer => (timer?.map (·.pending)).getD []) htimer
  · exact congrArg (fun timer? : Option Timer => timer?.map (·.nextSeq)) htimer

/-- Whatever happens to a device, its entries fire in order: one case for each `Change`. -/
theorem change (h : Keeps l es fs fired taken) (hr : l.Regular) (hd : l.device.Sound)
    (hclock : l.device.last? = none) (hchange : Change l a l') : ∃ fired' taken',
      Keeps l' (es ++ (l.scheduled? a).toList) (fs ++ (l.firing? a).toList) fired' taken' := by
  -- What begins a call on another thread than the timer's leaves its batch.
  have hbegin {d' : Device} {th : Thread} {c : Call}
      (hcalls : d'.calls = l.device.calls ++ [(th, c)])
      (hadmits : l.admits th = true) : d'.unfired = l.device.unfired := by
    obtain ⟨-, hne, hnone⟩ := admits_iff.mp hadmits
    rw [Device.unfired, call?_begin hcalls hnone, if_neg (Ne.symm hne), Device.unfired]
  -- Only a thread that goes on schedules or fires.
  have hstill (hentry : l.scheduled? a = none) (hfiring : l.firing? a = none)
      (hkeeps : ∃ fired' taken', Keeps l' es fs fired' taken') : ∃ fired' taken',
        Keeps l' (es ++ (l.scheduled? a).toList) (fs ++ (l.firing? a).toList) fired' taken' := by
    rwa [hentry, hfiring, Option.toList_none, Option.toList_none, List.append_nil, List.append_nil]
  cases hchange with
  | issued hadmits =>
    exact hstill rfl rfl
      ⟨fired, taken, h.still rfl (hbegin rfl hadmits) rfl le_rfl fun hd => hd⟩
  | @held op id =>
    obtain ⟨holds, heq⟩ := l.device.hold_eq op id
    rw [heq] at hstill ⊢
    exact hstill rfl rfl ⟨fired, taken, h.still rfl rfl rfl le_rfl fun hd => hd⟩
  | releasing hadmits =>
    exact hstill rfl rfl
      ⟨fired, taken, h.still rfl (hbegin rfl hadmits) rfl le_rfl fun hd => hd⟩
  | passed hle => exact hstill rfl rfl ⟨fired, taken, h.still rfl rfl rfl hle fun hd => hd⟩
  | dropped =>
    refine hstill rfl rfl ⟨fired, taken, h.still ?_ rfl ?_ le_rfl fun _ => rfl⟩
    · cases htimer : l.device.timer? <;> simp [pending, Device.close, htimer]
    · cases htimer : l.device.timer? <;> simp [Device.close, htimer]
  | fired hfire =>
    obtain ⟨timer, t, others, htimer, hnone, htaken, rfl⟩ := fire_eq_some hfire
    have hidle : l.device.unfired = [] := unfired_eq hnone
    refine hstill rfl rfl ⟨fired, h.take htimer hidle rfl ?_ rfl rfl (hr.shut timer htimer)⟩
    rw [Device.unfired, call?_begin (d := l.device) rfl hnone, if_pos rfl, htaken]
    rfl
  | @advanced th c c'? d' hadvance =>
    have hcall := hadvance.call?_eq
    have hself := hadvance.call?_self
    -- A thread other than the timer's leaves its batch.
    have hother (hne : th ≠ .timer) : d'.unfired = l.device.unfired := by
      rw [Device.unfired, hadvance.call?_of_ne (Ne.symm hne), Device.unfired]
    have hquiet := h.quiet hadvance
    obtain ⟨hsection, hcalls, hothers⟩ := hadvance
    cases hsection with
    | held | unheld | parked | undelayed | delayed | lifted | taken =>
      have hne := ne_timer hd hcall rfl
      exact hquiet rfl (by simp) (firing?_of_ne hne) (hother hne)
    | @scheduled t delay =>
      have hne := ne_timer hd hcall rfl
      have hsome := hd.timed th t delay (mem_calls_of_call? hcall)
      obtain ⟨timer, htimer⟩ := Option.isSome_iff_exists.mp hsome
      have hentry : l.scheduled? (.step th) = some ⟨l.now + delay.micros, timer.nextSeq, t⟩ := by
        rw [scheduled?, hcall, htimer]
      rw [hentry, firing?_of_ne hne, Option.toList_none, Option.toList_some, List.append_nil]
      refine ⟨fired, taken, h.schedule (hr.open_of_scheduling hcall) ?_ (h.next timer htimer) htimer
        ?_ (hother hne) rfl⟩
      · exact Nat.lt_add_of_pos_right (hr.later th t delay hcall)
      · exact congrArg (Option.map _) htimer
    | lost hnames => exact Bool.noConfusion (hnames.symm.trans (names_of_last? hclock _))
    | @noted t others released =>
      by_cases hth : th = .timer
      · subst hth
        rw [scheduled?_eq_none hcall (by simp), firing?_of_call hcall, Option.toList_none,
          List.append_nil]
        exact h.fire (unfired_eq hcall) (unfired_eq hself) rfl rfl rfl
      · exact hquiet rfl (by simp) (firing?_of_ne hth) (hother hth)
    | @given t others released =>
      by_cases hth : th = .timer
      · subst hth
        refine hquiet rfl (by simp) (firing?_of_call hcall) ?_
        rw [unfired_eq hcall]
        exact (unfired_eq hself).trans (Call.unfired_finish? others released)
      · exact hquiet rfl (by simp) (firing?_of_ne hth) (hother hth)

end Keeps

/-! ## A latency alone -/

/-- A device that delays every token by its latency, in which the entries were scheduled in the
order in which they fire. -/
structure Lags (l : Life) (latency : Span) (es : List Scheduled) : Prop where
  delays : l.device.delays = []
  isTimed : l.device.timer?.isSome = true
  latency_eq : l.device.latency = latency
  delayed : Delays (· = latency) l.device
  deadlines : ∀ e ∈ es, e.deadline ≤ l.now + latency.micros
  ordered : Ordered es

namespace Lags

variable {latency : Span} {es fired taken : List Scheduled} {fs : List Firing}

/-- At first nothing has been scheduled, and every delay will be the latency. -/
theorem create (hlatency : latency.isZero = false) (holds : List (Operation × WriteId)) :
    Lags (Life.create latency [] holds) latency [] := by
  refine ⟨rfl, ?_, rfl, nofun, nofun, .nil⟩
  simp [Life.create, Device.create, hlatency]

/-- No delay of its own is registered for any token, so `takeDelay` finds none. -/
theorem takeDelay_eq (h : Lags l latency es) (op : Operation) :
    l.device.takeDelay op = (none, l.device) := by
  rw [takeDelay, h.delays]
  rfl

/-- An action that schedules nothing keeps what `Lags` says. -/
private theorem still (h : Lags l latency es) (hdelayed : Delays (· = latency) l'.device)
    (hdelays : l'.device.delays = l.device.delays) (hlatency : l'.device.latency = l.device.latency)
    (htimer : l'.device.timer?.isSome = l.device.timer?.isSome) (hnow : l.now ≤ l'.now) :
    Lags l' latency es :=
  ⟨hdelays.trans h.delays, htimer.trans h.isTimed, hlatency.trans h.latency_eq, hdelayed,
    fun e he => (h.deadlines e he).trans (Nat.add_le_add_right hnow _), h.ordered⟩

/-- Whatever happens to a device with a latency alone, its entries are scheduled in the order of
their deadlines, none of them later than `now` and the latency. -/
theorem change (h : Lags l latency es) (hkeeps : Keeps l es fs fired taken)
    (hclock : l.device.last? = none) (hchange : Change l a l') :
    Lags l' latency (es ++ (l.scheduled? a).toList) := by
  have hdelayed : Delays (· = latency) l'.device := by
    refine h.delayed.change hchange fun op _ => ?_
    rw [h.takeDelay_eq, Option.getD_none, h.latency_eq]
  -- A step that schedules nothing leaves the entries as they are.
  have hstill (hentry : l.scheduled? a = none) (hlags : Lags l' latency es) :
      Lags l' latency (es ++ (l.scheduled? a).toList) := by
    rwa [hentry, Option.toList_none, List.append_nil]
  cases hchange with
  | issued | releasing => exact hstill rfl (h.still hdelayed rfl rfl rfl le_rfl)
  | @held op id =>
    obtain ⟨holds, heq⟩ := l.device.hold_eq op id
    rw [heq] at hstill hdelayed ⊢
    exact hstill rfl (h.still hdelayed rfl rfl rfl le_rfl)
  | passed hle => exact hstill rfl (h.still hdelayed rfl rfl rfl hle)
  | dropped => exact hstill rfl (h.still hdelayed rfl rfl (by simp [Device.close]) le_rfl)
  | fired hfire =>
    obtain ⟨timer, t, others, htimer, -, -, rfl⟩ := fire_eq_some hfire
    exact hstill rfl (h.still hdelayed rfl rfl (by rw [htimer]; rfl) le_rfl)
  | @advanced th c c'? d' hadvance =>
    have hcall := hadvance.call?_eq
    obtain ⟨hsection, hcalls, hothers⟩ := hadvance
    have hquiet (hc : ∀ t delay, c ≠ .scheduling t delay) {d' : Device}
        (hlags : Lags { l with device := d' } latency es) :
        Lags { l with device := d' } latency (es ++ (l.scheduled? (.step th)).toList) := by
      rwa [scheduled?_eq_none hcall hc, Option.toList_none, List.append_nil]
    cases hsection with
    | held | unheld | parked | noted | given | lifted | taken =>
      exact hquiet (by simp) (h.still hdelayed rfl rfl rfl le_rfl)
    | @undelayed t delays htake | @delayed t delays htake =>
      rw [h.takeDelay_eq] at htake
      refine hquiet (by simp) (h.still hdelayed ?_ rfl rfl le_rfl)
      exact (congrArg Device.delays htake).symm
    | @scheduled t delay =>
      obtain ⟨timer, htimer⟩ := Option.isSome_iff_exists.mp h.isTimed
      have hentry : l.scheduled? (.step th) = some ⟨l.now + delay.micros, timer.nextSeq, t⟩ := by
        rw [scheduled?, hcall, htimer]
      obtain rfl : delay = latency := h.delayed th t delay hcall
      rw [hentry, Option.toList_some]
      -- The new entry is `latency` after now, and no earlier entry was made later than now.
      refine ⟨h.delays, Option.isSome_map.trans h.isTimed, h.latency_eq, hdelayed, fun e he => ?_,
        List.pairwise_append.mpr ⟨h.ordered, List.pairwise_singleton .., fun x hx e he => ?_⟩⟩
      · rcases List.mem_append.mp he with he | he
        · exact h.deadlines e he
        · exact (List.mem_singleton.mp he) ▸ le_rfl
      · obtain rfl := List.mem_singleton.mp he
        refine Scheduled.before_of_seq_lt (h.deadlines x hx) ?_
        exact (hkeeps.next timer htimer).symm ▸ hkeeps.seq_lt hx
    | lost hnames => exact Bool.noConfusion (hnames.symm.trans (names_of_last? hclock _))

end Lags

/-! ## Issues that do not overlap -/

/-- The token that an action decides to put on the timer. -/
def later? (l : Life) (a : Action) : Option Token :=
  (l.course? a).bind fun (t, c) => if c = .atOnce then none else some t

/-- A token is put on the timer once that is decided; in between it is in `Call.delayed`. -/
theorem passage_delayed :
    Passage Call.delayed later? (fun l a => (l.scheduled? a).map (·.token)) where
  ofIssue := ofIssue_delayed
  begins l th t := ⟨rfl, rfl⟩
  goesOn l th c c'? d' hs hd hclock hstep hadvance hc := by
    have hcall := hadvance.call?_eq
    have hnone (hc : ∀ t, c ≠ .timing t) : l.later? (.step th) = none := by
      rw [later?, course?_eq_none (timing?_eq_none hcall hc), Option.bind_none]
    have hsection := hadvance
    obtain ⟨hsection, -, -⟩ := hsection
    -- Between the look at the delays and the timer a token is `delayed`, and in no other section.
    cases hsection with
    | undelayed | delayed =>
      rw [later?, course?_of_advance hstep hadvance, scheduled?_eq_none hcall nofun]
      rfl
    | held | unheld | parked =>
      rw [hnone nofun, scheduled?_eq_none hcall nofun]
      rfl
    | @scheduled t delay =>
      have hsome := hd.timed th t delay (mem_calls_of_call? hcall)
      obtain ⟨timer, htimer⟩ := Option.isSome_iff_exists.mp hsome
      rw [hnone nofun, scheduled?, hcall, htimer]
      rfl
    | lost hnames => exact Bool.noConfusion (hnames.symm.trans (names_of_last? hclock _))
    | noted | given | lifted | taken => exact absurd rfl hc
  quiet l a ha := by
    rw [later?, course?_eq_none (timing?_eq_none_of_not_isOfIssue ha), Option.bind_none]
    refine ⟨rfl, ?_⟩
    cases a with
    | step th =>
      rw [scheduled?]
      split
      · rename_i hcall _
        exact absurd ⟨_, hcall, nofun⟩ ha
      · rfl
    | issue | hold | release | fire | pass | drop => rfl

/-! ## Whole runs -/

/-- How a device fires the entries on its timer: in the order of deadlines and numbers over the
whole run, and after it has been dropped all of them, in a bounded number of steps. -/
structure FiresInOrder (l : Life) (es : List Scheduled) (fs : List Firing) : Prop where
  numbered : es.map (·.seq) = List.range es.length
  ordered : ∃ fired rest : List Scheduled,
    (fired ++ rest).Perm es ∧ Ordered (fired ++ rest) ∧ List.Forall₂ Fires fired fs
  /-- The timer's thread does not end while anything is left. -/
  left : l.isDropped = true → fs.length < es.length →
    (l.step .fire).isSome = true ∨ (l.step (.step .timer)).isSome = true
  ends : l.isDropped = true → ∀ as l' hs, l.run? as = some (l', hs) →
    as.countP (!·.isPass) ≤ 3 * (es.length - fs.length) + 1

/-- With a latency alone entries fire as they were scheduled. They are scheduled as they were
issued, if no issue begins before the last one has returned. -/
structure FiresAsIssued (s : Life) (as : List Action) (es : List Scheduled) (fs : List Firing)
    (unheld : List Token) : Prop where
  fired : fs.map (·.token) <+: es.map (·.token)
  scheduled : IssuesApart s as → es.map (·.token) <+: unheld
  issued : IssuesApart s as → unheld.Sublist (as.filterMap Action.issued?)

section

variable {latency : Span} {delays : List (Operation × Span)} {holds : List (Operation × WriteId)}
  {es fired taken : List Scheduled} {fs : List Firing}

/-- The entries of a device that is run fire in order at every moment: `Keeps` holds along every
run. -/
theorem keeps_of_run? (h : (create latency delays holds).run? as = some (l, hs)) :
    l.Regular ∧ ∃ fired taken, Keeps l (seen scheduled? (create latency delays holds) as)
      (seen firing? (create latency delays holds) as) fired taken := by
  refine run?_induction (P := fun as l => l.Regular ∧ ∃ fired taken,
    Keeps l (seen scheduled? (create latency delays holds) as)
      (seen firing? (create latency delays holds) as) fired taken)
    (sound_create latency delays holds)
    ⟨regular_create latency delays holds, [], [], Keeps.create latency delays holds⟩ ?_ h
  rintro as l hs a l' hs' hrun hd ⟨hr, fired, taken, hkeeps⟩ hstep hchange
  rw [seen_concat _ hrun, seen_concat _ hrun]
  exact ⟨hr.change hd hstep hchange, hkeeps.change hr hd (last?_of_run? hrun) hchange⟩

/-- With a latency alone entries are scheduled in the order in which they fire, along every run:
`Lags` holds. -/
theorem lags_of_run? (hlatency : latency.isZero = false)
    (h : (create latency [] holds).run? as = some (l, hs)) :
    Lags l latency (seen scheduled? (create latency [] holds) as) := by
  refine run?_induction
    (P := fun as l => Lags l latency (seen scheduled? (create latency [] holds) as))
    (sound_create latency [] holds) (Lags.create hlatency holds) ?_ h
  intro as l hs a l' hs' hrun hd hlags hstep hchange
  obtain ⟨-, fired, taken, hkeeps⟩ := keeps_of_run? hrun
  rw [seen_concat _ hrun]
  exact hlags.change hkeeps (last?_of_run? hrun) hchange

/-- With a `latency` alone every token that is not on hold is put on the timer. -/
theorem seen_later?_eq (hlatency : latency.isZero = false)
    (h : (create latency [] holds).run? as = some (l, hs)) :
    seen later? (create latency [] holds) as =
      (seen course? (create latency [] holds) as).map (·.1) := by
  rw [← List.filterMap_eq_map']
  refine (seen_bind course? _ _ as).trans (List.filterMap_congr fun (t, c) hmem => ?_)
  obtain ⟨used, n, hdraws⟩ := draws_of_run? h t.operation
  have hused : used = [] := (List.append_eq_nil_iff.mp hdraws.perm.eq_nil).1
  have hc : c ∈ coursesOf t.operation (seen course? (create latency [] holds) as) :=
    List.mem_map.mpr ⟨(t, c), List.mem_filter.mpr ⟨hmem, by simp⟩, rfl⟩
  rw [hdraws.courses, hused, List.nil_append, List.map_replicate] at hc
  rw [List.eq_of_mem_replicate hc, Course.of, hlatency]
  rfl

/-- What `stepsLeft` leaves to the timer's thread of a device that has been dropped. -/
theorem Keeps.stepsLeft_le (h : Keeps l es fs fired taken) (hl : l.IsClosing) :
    l.stepsLeft ≤ 3 * (es.length - fs.length) + 1 := by
  have hlength := h.perm.length_eq
  have hfires := h.fires.length_eq
  have hcalls : (l.device.calls.map (·.2.stepsLeft)).sum ≤ 2 * taken.length + 1 := by
    rw [← List.length_map (f := (·.token)), ← h.unfired]
    rcases hl.calls with hcalls | ⟨c, hcalls, -⟩
    · simp [hcalls]
    · have hle := c.stepsLeft_le_unfired
      simpa [hcalls, Device.unfired, call?] using hle
  rw [stepsLeft, l.device.scheduled_eq, List.length_map]
  simp only [List.length_append] at hlength
  omega

/-- Entries that fire in order, with what is left still in order behind them (`Keeps`), have fired
in the order of their deadlines. -/
theorem Keeps.firesInOrder (h : Keeps l es fs fired taken) (hr : l.Regular) :
    FiresInOrder l es fs := by
  refine ⟨h.numbered, ⟨fired, taken ++ l.device.pending, ?_, ?_, h.fires⟩, fun hdropped hleft => ?_,
    fun hdropped as l' hs hrun => ?_⟩
  · rw [← List.append_assoc]
    exact h.perm
  · rw [← List.append_assoc]
    exact h.ordered
  · refine (hr.isClosing hdropped).step_isSome fun hnil => Nat.lt_irrefl es.length ?_
    obtain ⟨hunfired, hpending⟩ := unfired_and_pending_eq_nil hnil
    have htaken : taken = [] := List.map_eq_nil_iff.mp (h.unfired ▸ hunfired)
    have hlength := h.perm.length_eq
    rw [htaken, hpending, List.append_nil, List.append_nil, h.fires.length_eq] at hlength
    rwa [hlength] at hleft
  · have hsteps := ((hr.isClosing hdropped).run? hrun).2.2.2
    have hle := h.stepsLeft_le (hr.isClosing hdropped)
    omega

/-- Whatever is done with a device, and whenever its timer's thread comes round, the tokens on the
timer fire in the order of their deadlines, those with the same deadline as they were scheduled
(`FiresInOrder`). With a latency alone they fire as they were issued, where issues do not overlap
(`FiresAsIssued`). -/
theorem fires_in_order (h : (create latency delays holds).run? as = some (l, hs)) :
    FiresInOrder l (seen scheduled? (create latency delays holds) as)
      (seen firing? (create latency delays holds) as) ∧
    (delays = [] → latency.isZero = false →
      FiresAsIssued (create latency delays holds) as
        (seen scheduled? (create latency delays holds) as)
        (seen firing? (create latency delays holds) as)
        (seen unheld? (create latency delays holds) as)) := by
  obtain ⟨hr, fired, taken, hkeeps⟩ := keeps_of_run? h
  refine ⟨hkeeps.firesInOrder hr, ?_⟩
  rintro rfl hlatency
  have hordered := (lags_of_run? hlatency h).ordered
  refine ⟨?_, fun hapart => ?_, fun hapart => ?_⟩
  · have heq := eq_of_ordered_of_perm hkeeps.ordered hordered hkeeps.perm
    rw [map_token_of_fires hkeeps.fires, ← heq, List.append_assoc, List.map_append]
    exact List.prefix_append ..
  · have hsound := sound_create latency [] holds
    have hentries := passage_delayed.of_run? hsound rfl rfl h hapart
    rw [seen_later?_eq hlatency h] at hentries
    rw [← seen_map, ← hapart.map_course? h, ← hentries, List.append_assoc]
    exact List.prefix_append ..
  · exact hapart.unheld_sublist (sound_create latency [] holds) rfl rfl h

/-- A token with a long delay is put on the timer, then one with a short delay that fires first, and
while that happens one that is due with the first. The device is dropped before these two are. -/
def overtaking : List Action :=
  let issuer := Thread.worker .checkpoint
  [.issue issuer ⟨0, .journalTxe, 1⟩, .step issuer, .step issuer, .step issuer,
    .issue issuer ⟨1, .writeInode, 1⟩, .step issuer, .step issuer, .step issuer, .pass 5, .fire,
    .issue issuer ⟨2, .writeBitmap, 1⟩, .step issuer, .step .timer, .step issuer, .step issuer,
    .drop, .step .timer, .fire, .step .timer, .step .timer, .step .timer, .step .timer]

/-- Two tokens of one operation, each issued after the other has been, and one of another that is on
hold. -/
def inTurn : List Action :=
  let issuer := Thread.worker .checkpoint
  [.issue issuer ⟨0, .writeInode, 1⟩, .step issuer, .step issuer, .step issuer,
    .issue issuer ⟨1, .writeBitmap, 1⟩, .step issuer, .step issuer,
    .pass 2, .issue issuer ⟨2, .writeInode, 1⟩, .step issuer, .step issuer, .step issuer,
    .pass 9, .fire, .step .timer, .step .timer, .step .timer]

theorem fires_in_order_of_overtaking :
    (∃ l hs, (create ⟨5⟩ [(.journalTxe, ⟨10⟩)] []).run? overtaking = some (l, hs) ∧
      FiresInOrder l (seen scheduled? (create ⟨5⟩ [(.journalTxe, ⟨10⟩)] []) overtaking)
        (seen firing? (create ⟨5⟩ [(.journalTxe, ⟨10⟩)] []) overtaking)) ∧
    (seen scheduled? (create ⟨5⟩ [(.journalTxe, ⟨10⟩)] []) overtaking =
      [⟨10, 0, ⟨0, .journalTxe, 1⟩⟩, ⟨5, 1, ⟨1, .writeInode, 1⟩⟩, ⟨10, 2, ⟨2, .writeBitmap, 1⟩⟩]) ∧
    (seen firing? (create ⟨5⟩ [(.journalTxe, ⟨10⟩)] []) overtaking =
      [⟨⟨1, .writeInode, 1⟩, 5, false⟩, ⟨⟨0, .journalTxe, 1⟩, 5, true⟩,
        ⟨⟨2, .writeBitmap, 1⟩, 5, true⟩]) ∧
    (∃ l hs, (create ⟨5⟩ [] [(.writeBitmap, 1)]).run? inTurn = some (l, hs) ∧
      IssuesApart (create ⟨5⟩ [] [(.writeBitmap, 1)]) inTurn ∧
      FiresAsIssued (create ⟨5⟩ [] [(.writeBitmap, 1)]) inTurn
        (seen scheduled? (create ⟨5⟩ [] [(.writeBitmap, 1)]) inTurn)
        (seen firing? (create ⟨5⟩ [] [(.writeBitmap, 1)]) inTurn)
        (seen unheld? (create ⟨5⟩ [] [(.writeBitmap, 1)]) inTurn)) ∧
    (seen firing? (create ⟨5⟩ [] [(.writeBitmap, 1)]) inTurn).map (·.token) =
      [⟨0, .writeInode, 1⟩, ⟨2, .writeInode, 1⟩] := by
  have hover : ((create ⟨5⟩ [(.journalTxe, ⟨10⟩)] []).run? overtaking).isSome = true := by
    decide +kernel
  have hturn : ((create ⟨5⟩ [] [(.writeBitmap, 1)]).run? inTurn).isSome = true := by
    decide +kernel
  obtain ⟨⟨l, hs⟩, hover⟩ := Option.isSome_iff_exists.mp hover
  obtain ⟨⟨l', hs'⟩, hturn⟩ := Option.isSome_iff_exists.mp hturn
  refine ⟨⟨l, hs, hover, (fires_in_order hover).1⟩, by decide +kernel, by decide +kernel,
    ⟨l', hs', hturn, by decide +kernel, (fires_in_order hturn).2 rfl rfl⟩, by decide +kernel⟩

/-- Two workers whose issues overlap: the second to come in is the first to put its token on the
timer. -/
def crossing : List Action :=
  let first := Thread.worker .metadata
  let second := Thread.worker .commit
  [.issue first ⟨0, .writeData, 1⟩, .issue second ⟨1, .journalTxe, 1⟩,
    .step second, .step second, .step second, .step first, .step first, .step first,
    .pass 5, .fire, .step .timer, .step .timer, .step .timer]

/-- With a latency alone and nothing on hold, tokens whose issues overlap may be completed against
the order in which `events` has them as issued. -/
theorem fires_against_issues :
    ∃ l hs, (create ⟨5⟩ [] []).run? crossing = some (l, hs) ∧ l.isDropped = false ∧
      seen unheld? (create ⟨5⟩ [] []) crossing = [⟨1, .journalTxe, 1⟩, ⟨0, .writeData, 1⟩] ∧
      crossing.filterMap Action.issued? = [⟨0, .writeData, 1⟩, ⟨1, .journalTxe, 1⟩] ∧
      l.device.events =
        [⟨.issued, 0, .writeData⟩, ⟨.issued, 1, .journalTxe⟩, ⟨.completed, 1, .journalTxe⟩,
          ⟨.completed, 0, .writeData⟩] :=
  ⟨_, _, rfl, rfl, rfl, rfl, rfl⟩

end

end Life

end WriteAhead.Device
