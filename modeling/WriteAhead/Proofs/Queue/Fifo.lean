import WriteAhead.Proofs.Queue.History
import WriteAhead.Proofs.Queue.Sleepers

/-!
# A queue is a bounded first-in first-out buffer

Whatever any number of callers do at a queue, their answers are those of a buffer of the same
capacity: `Allows` says which answers that buffer has, by the history alone. The values come out in
the order in which they were accepted, and every value that was brought is in exactly one place: it
came out, it is queued, it was handed back, or its push still waits.

The counters of a queue are the lengths of these sequences, except that `popped` lags behind:
`Monitor.tryPop` leaves its critical section before it counts the value that it took, so between the
two the value is out and not counted (`popped_lags`).

## Key results

- `Entry.allows`: every answer is one that the buffer has
- `Run.refines_fifo`: what holds at every moment of a run
-/

namespace WriteAhead.Queue.Monitor

variable {κ α : Type} [DecidableEq κ]

/-- The answers of a bounded first-in first-out buffer, by the turns before them. What is accepted
and has not come out is what the buffer holds. -/
inductive Allows (capacity : Nat) (before : History κ α) :
    Action κ α → Option (Reply α) → Prop where
  /-- A value is accepted while the buffer is open and has room. -/
  | pushed {a call : Action κ α} {v : α} (hcall : call? before a = some call)
      (hwant : call.want? = some (.push v)) (hopen : ¬ IsClosed before)
      (hroom : (accepted before).length < (popped before).length + capacity) :
      Allows capacity before a (some .pushed)
  /-- A closed buffer hands the value of a call back. -/
  | refused {a call : Action κ α} {v : α} (hcall : call? before a = some call)
      (hwant : call.want? = some (.push v)) (hclosed : IsClosed before) :
      Allows capacity before a (some (.refused v))
  /-- A full buffer hands its value back to a caller that does not wait. -/
  | full {k : κ} {v : α} (hopen : ¬ IsClosed before)
      (hfull : (accepted before).length = (popped before).length + capacity) :
      Allows capacity before (.tryPush k v) (some (.full v))
  /-- A caller waits with its value at a full buffer only. -/
  | stalledPush {a : Action κ α} {k : κ} {v : α}
      (hcall : call? before a = some (.enter k (.push v))) (hopen : ¬ IsClosed before)
      (hfull : (accepted before).length = (popped before).length + capacity) :
      Allows capacity before a none
  /-- The value that comes out is the one that was accepted first of those still in. -/
  | item {a call : Action κ α} {v : α} {rest : List α} (hcall : call? before a = some call)
      (hwant : call.want? = some .pop) (hfirst : accepted before = popped before ++ v :: rest) :
      Allows capacity before a (some (.item v))
  /-- A closed buffer ends once it is empty. -/
  | ended {a call : Action κ α} (hcall : call? before a = some call)
      (hwant : call.want? = some .pop) (hclosed : IsClosed before)
      (hdry : accepted before = popped before) : Allows capacity before a (some .nothing)
  /-- An empty buffer has nothing for a caller that does not wait. -/
  | empty {k : κ} (hdry : accepted before = popped before) :
      Allows capacity before (.tryPop k) (some .nothing)
  /-- A caller waits for a value at an empty buffer only. -/
  | stalledPop {a : Action κ α} {k : κ} (hcall : call? before a = some (.enter k .pop))
      (hopen : ¬ IsClosed before) (hdry : accepted before = popped before) :
      Allows capacity before a none
  | closed {k : κ} : Allows capacity before (.close k) (some .closed)
  /-- To count a value that came out is no answer. -/
  | counted {k : κ} : Allows capacity before (.count k) none
  /-- A notification is no answer. -/
  | told {k : κ} : Allows capacity before (.deliver k) none

/-- A call that wants this and does not wait for it, up to the notification that it owes then. What
a `tryPop` took is counted in a step of its own. -/
def tryNow (m : Monitor κ α) (k : κ) : Want α → Monitor κ α × Reply α
  | .push v => m.tryPush k v
  | .pop =>
    match m.tryPop k with
    | (m', .item v) => ((m'.count k).getD m', .item v)
    | (m', reply) => (m', reply)

/-- Whether a caller takes a value on this turn without waiting. -/
def takes (k : κ) (t : Action κ α × Option (Reply α)) : Bool :=
  match t with
  | (.tryPop k', some (.item _)) => k' = k
  | _ => false

/-- Whether a caller counts on this turn what it took without waiting. -/
def counts (k : κ) (t : Action κ α × Option (Reply α)) : Bool :=
  match t.1 with
  | .count k' => k' = k
  | _ => false

/-- The values that callers wait with. -/
def waiting (w : Waiters κ (Want α)) : List α := w.all.filterMap (·.2.value?)

variable {q : Queue α} {turns : History κ α} {m m' : Monitor κ α} {a : Action κ α}
  {r : Option (Reply α)} {k : κ} {want : Want α} {first : Bool} {w : Waiters κ (Want α)}

omit [DecidableEq κ] in
/-- A caller that falls asleep waits with the value of its push (`value?`). -/
theorem waiting_sleep (w : Waiters κ (Want α)) (k : κ) (want : Want α) :
    (waiting (w.sleep k want)).Perm (want.value?.toList ++ waiting w) := by
  have hperm := (w.all_sleep k want).filterMap (·.2.value?)
  cases want <;> exact hperm

/-! ## One turn -/

/-- The value of a push that is accepted (`accepted?`) is the one that its call brought, possibly
many turns ago. -/
theorem Seeks.accepted?_eq {v : α} (h : Seeks turns m a k (.push v) first w) :
    accepted? turns (a, some .pushed) = some v := by
  obtain ⟨call, hcall, hwant⟩ := h.call
  simp [accepted?, hcall, Action.value?, hwant, Want.value?]

/-- What a call looks for with its value, no caller among the `waiting` looks for with it: the value
is brought on the first look, and taken from those who wait on later ones. -/
theorem Seeks.waiting_perm (h : Seeks turns m a k want first w) :
    (a.value?.toList ++ waiting m.waiters).Perm (want.value?.toList ++ waiting w) := by
  rw [h.value]
  cases h.look with
  | first => exact List.Perm.refl _
  | again hwoken =>
    have hperm := (Waiters.all_resume hwoken).filterMap (·.2.value?)
    cases want <;> exact hperm

/-- Values go in at the back of `items` and come out at the front. -/
theorem Entry.items_eq (h : Entry turns m a r m') :
    m.queue.items ++ (accepted? turns (a, r)).toList =
      (r.bind Reply.item?).toList ++ m'.queue.items := by
  cases h with
  | pushed hseeks => rw [hseeks.accepted?_eq]; rfl
  | item hseeks hcall hitems => simp [accepted?, Reply.item?, hitems]
  | taken hcounted hitems => simp [accepted?, Reply.item?, hitems, owe]
  | told hqueue => simp [accepted?, hqueue]
  | refused | stalledPush | ended | stalledPop | full | counted | empty | closed =>
    simp [accepted?, Reply.item?, Monitor.close, owe, Queue.close, countPop]

/-- A turn counts the value that goes in as `pushed` and the one that comes out as `popped`, or its
caller is one more of the `uncounted`. -/
theorem Entry.counters (h : Entry turns m a r m') :
    m'.queue.pushed = m.queue.pushed + (accepted? turns (a, r)).toList.length ∧
      m'.queue.popped + m'.uncounted.length =
        m.queue.popped + m.uncounted.length + (r.bind Reply.item?).toList.length := by
  cases h with
  | pushed hseeks => rw [hseeks.accepted?_eq]; exact ⟨rfl, rfl⟩
  | item => exact ⟨rfl, Nat.add_right_comm _ _ _⟩
  | taken => exact ⟨rfl, rfl⟩
  -- The count goes up and the caller has nothing to count any more.
  | counted hmem =>
    have := List.length_erase_add_one hmem
    refine ⟨rfl, ?_⟩
    simp only [countPop, Option.bind_none, Option.toList_none, List.length_nil]
    omega
  | told hqueue huncounted => simp [accepted?, hqueue, huncounted]
  | refused | stalledPush | ended | stalledPop | full | empty | closed =>
    simp [accepted?, Reply.item?, Monitor.close, owe, Queue.close]

/-- Nobody takes a value without waiting (`takes`) on a turn that does not give one out. -/
theorem takes_of_item? (k : κ) (h : r.bind Reply.item? = none) :
    takes k (a, r) = false := by
  cases a with
  | tryPop k' =>
    cases r with
    | none => rfl
    | some reply =>
      cases reply with
      | item => exact nomatch h
      | pushed | refused | full | nothing | closed => rfl
  | enter | tryPush | close | recheck | count | deliver => rfl

/-- A turn of a call that waits is not one that `takes` a value without waiting. -/
theorem takes_of_enter {k' : κ} (h : call? turns a = some (.enter k' want)) :
    takes k (a, r) = false := by
  cases a with
  | tryPop => exact nomatch Option.some.inj h
  | enter | tryPush | close | recheck | count | deliver => rfl

/-- What belongs to a call does not count a value on its own (`counts`). -/
theorem counts_of_call {call : Action κ α} (h : call? turns a = some call) :
    counts k (a, r) = false := by
  cases a with
  | count => exact nomatch h
  | enter | tryPush | tryPop | close | recheck | deliver => rfl

/-- `uncounted` has each caller once, and it has those that took a value with `tryPop` and did not
`count` it on a later turn. -/
theorem Entry.uncounted (h : Entry turns m a r m') (hnodup : m.uncounted.Nodup) :
    m'.uncounted.Nodup ∧ ∀ k, (counts k (a, r)).toNat + m'.uncounted.count k =
      (takes k (a, r)).toNat + m.uncounted.count k := by
  cases h with
  -- A caller has counted what it took before it can take another value.
  | taken hcounted =>
    refine ⟨List.nodup_cons.mpr ⟨hcounted, hnodup⟩, fun k => ?_⟩
    simp only [counts, takes, owe, List.count_cons, beq_iff_eq]
    split <;> simp [*, Nat.add_comm]
  | @counted k' hmem =>
    refine ⟨hnodup.erase k', fun k => ?_⟩
    rw [takes_of_item? k rfl]
    rcases eq_or_ne k' k with rfl | hne
    · have : 0 < m.uncounted.count k' := List.count_pos_iff.mpr hmem
      simp only [counts, decide_true, Bool.toNat_true, Bool.toNat_false, List.count_erase_self]
      omega
    · simp [counts, hne, List.count_erase_of_ne hne.symm]
  | told hqueue huncounted =>
    refine ⟨huncounted ▸ hnodup, fun k => ?_⟩
    rw [huncounted, takes_of_item? k rfl]
    rfl
  | item hseeks hcall =>
    refine ⟨hnodup, fun k => ?_⟩
    rw [takes_of_enter hcall, counts_of_call hcall]
  -- All other turns neither take without waiting nor count.
  | pushed hseeks | refused hseeks | stalledPush hseeks | ended hseeks | stalledPop hseeks =>
    refine ⟨hnodup, fun k => ?_⟩
    obtain ⟨call, hcall, -⟩ := hseeks.call
    rw [takes_of_item? k rfl, counts_of_call hcall]
  | full | empty | closed =>
    refine ⟨hnodup, fun k => ?_⟩
    rw [takes_of_item? k rfl]
    rfl

/-- A turn counts the caller that falls asleep, unless its call has slept before: `pushBlocked` and
`popWaited` count calls, not sleeps. -/
theorem Entry.stalls_eq (h : Entry turns m a r m') :
    m'.queue.pushBlocked = m.queue.pushBlocked + (stalls Want.isPush (a, r)).toNat ∧
      m'.queue.popWaited = m.queue.popWaited + (stalls Want.isPop (a, r)).toNat := by
  -- Only the turn with which a blocking call begins is its first look.
  have hstalls : ∀ {k want first}, Stalls turns a k want first →
      ∀ p : Want α → Bool, stalls p (a, none) = (first && p want) := by
    intro k want first h p
    cases first with
    | true => rw [h.first_iff.mp rfl]; rfl
    | false =>
      cases a with
      | enter k' want' =>
        -- A call that begins here is on its first look.
        have hcall := Option.some.inj h.call
        exact absurd (h.first_iff.mpr hcall) Bool.false_ne_true
      | tryPush | tryPop | close | recheck | count | deliver => rfl
  cases h with
  | stalledPush hseeks h | stalledPop hseeks h =>
    simp [hstalls h, Want.isPush, Want.isPop]
  | told hqueue => simp [stalls, hqueue]
  | pushed | refused | item | ended | full | taken | counted | empty | closed =>
    simp [stalls, Monitor.close, owe, Queue.close, countPop]

/-- A queue is closed once a caller has closed it: `close` alone sets the flag, and nothing clears
it. -/
theorem Entry.closed_iff (h : Entry turns m a r m') :
    m'.queue.closed = true ↔ m.queue.closed = true ∨ ∃ k, a = .close k ∧ r = some .closed := by
  cases h with
  | told hqueue => simp [hqueue]
  | closed k => simp [Monitor.close, owe, Queue.close]
  | taken | counted => simp [owe, countPop]
  | pushed | refused | stalledPush | item | ended | stalledPop | full | empty => simp

/-- The value that a turn brings (`value?`) goes in, is handed back or waits. -/
theorem Entry.waiting_perm (h : Entry turns m a r m') :
    (a.value?.toList ++ waiting m.waiters).Perm
      ((accepted? turns (a, r)).toList ++ (r.bind Reply.handedBack?).toList ++
        waiting m'.waiters) := by
  cases h with
  | pushed hseeks =>
    rw [hseeks.accepted?_eq]
    exact hseeks.waiting_perm
  | refused hseeks | item hseeks | ended hseeks => exact hseeks.waiting_perm
  | stalledPush hseeks | stalledPop hseeks =>
    exact hseeks.waiting_perm.trans (waiting_sleep _ _ _).symm
  | full | taken | counted | empty | closed => exact List.Perm.refl _
  | told hqueue huncounted hall => exact hall.symm.filterMap _

/-! ## Runs -/

/-- What a history says about the queue that it led to. -/
structure Recorded (turns : History κ α) (m : Monitor κ α) : Prop where
  order : accepted turns = popped turns ++ m.queue.items
  pushed_eq : m.queue.pushed = (accepted turns).length
  popped_eq : m.queue.popped + m.uncounted.length = (popped turns).length
  uncounted_nodup : m.uncounted.Nodup
  uncounted_eq : ∀ k, turns.countP (counts k) + m.uncounted.count k = turns.countP (takes k)
  pushBlocked_eq : m.queue.pushBlocked = turns.countP (stalls Want.isPush)
  popWaited_eq : m.queue.popWaited = turns.countP (stalls Want.isPop)
  closed_iff : m.queue.closed = true ↔ IsClosed turns
  conserved : (brought turns).Perm (accepted turns ++ handedBack turns ++ waiting m.waiters)

/-- What a history says of the queue (`Recorded`) it says after one more turn. -/
theorem Entry.recorded (h : Entry turns m a r m') (hm : Recorded turns m) :
    Recorded (turns ++ [(a, r)]) m' := by
  constructor
  case order =>
    rw [accepted_concat, popped_concat, hm.order, List.append_assoc, h.items_eq,
      List.append_assoc]
  case pushed_eq => rw [accepted_concat, List.length_append, h.counters.1, hm.pushed_eq]
  case popped_eq => rw [popped_concat, List.length_append, h.counters.2, hm.popped_eq]
  case uncounted_nodup => exact (h.uncounted hm.uncounted_nodup).1
  case uncounted_eq =>
    intro k
    have hturn := (h.uncounted hm.uncounted_nodup).2 k
    have hbefore := hm.uncounted_eq k
    have hbit : ∀ b : Bool, (if b = true then 1 else 0) = b.toNat := by decide
    simp only [List.countP_append, List.countP_singleton, hbit]
    omega
  case pushBlocked_eq =>
    rw [List.countP_append, List.countP_singleton, h.stalls_eq.1, hm.pushBlocked_eq]
    cases stalls Want.isPush (a, r) <;> rfl
  case popWaited_eq =>
    rw [List.countP_append, List.countP_singleton, h.stalls_eq.2, hm.popWaited_eq]
    cases stalls Want.isPop (a, r) <;> rfl
  case closed_iff => rw [h.closed_iff, isClosed_concat, hm.closed_iff]
  case conserved =>
    rw [brought_concat, accepted_concat, handedBack_concat]
    -- What the turn brought joins the values that wait, and from there finds its place.
    refine (hm.conserved.append_right a.value?.toList).trans ?_
    rw [List.append_assoc _ (waiting m.waiters)]
    refine ((List.perm_append_comm.trans h.waiting_perm).append_left _).trans ?_
    simp only [List.append_assoc]
    exact (List.perm_append_comm_assoc _ _ _).append_left _

/-- A history of a new queue says what the queue holds and counts (`Recorded`). -/
theorem Run.recorded {name : String} {capacity : Nat} (h : Run { name, capacity } turns m) :
    Recorded turns m := by
  generalize hq : ({ name, capacity } : Queue α) = q at h
  induction h with
  | start =>
    subst hq
    exact ⟨rfl, rfl, rfl, List.nodup_nil, fun _ => rfl, rfl, rfl, ⟨nofun, nofun⟩, List.Perm.refl _⟩
  | step hrun hstep ih => exact (hstep.entry hrun.begun).recorded ih

/-- Every answer is one that the bounded buffer has, as `Allows` says it from the history alone. -/
theorem Entry.allows {capacity : Nat} (h : Entry turns m a r m') (hm : Recorded turns m)
    (hfits : m.Fits capacity) : Allows capacity turns a r := by
  -- What the queue is, the history says: its flag, its length, its emptiness.
  have hopen : m.queue.closed = false → ¬ IsClosed turns := by
    intro hopen hclosed
    rw [hm.closed_iff.mpr hclosed] at hopen
    exact nomatch hopen
  have hfull : m.queue.capacity ≤ m.queue.items.length →
      (accepted turns).length = (popped turns).length + capacity := by
    intro hfull
    rw [hm.order, List.length_append]
    have := hfits.1
    have := hfits.2
    omega
  have hdry : m.queue.items = [] → accepted turns = popped turns := by
    intro hitems
    rw [hm.order, hitems, List.append_nil]
  cases h with
  | pushed hseeks h hroom =>
    obtain ⟨call, hcall, hwant⟩ := hseeks.call
    refine .pushed hcall hwant (hopen h) ?_
    rw [hm.order, List.length_append]
    have := hfits.1
    omega
  | refused hseeks hclosed =>
    obtain ⟨call, hcall, hwant⟩ := hseeks.call
    exact .refused hcall hwant (hm.closed_iff.mp hclosed)
  | stalledPush hseeks hstalls h hitems => exact .stalledPush hstalls.call (hopen h) (hfull hitems)
  | item hseeks hcall hitems => exact .item hcall rfl (by rw [hm.order, hitems])
  | taken hcounted hitems => exact .item rfl rfl (by rw [hm.order, hitems])
  | ended hseeks hclosed hitems =>
    obtain ⟨call, hcall, hwant⟩ := hseeks.call
    exact .ended hcall hwant (hm.closed_iff.mp hclosed) (hdry hitems)
  | stalledPop hseeks hstalls h hitems => exact .stalledPop hstalls.call (hopen h) (hdry hitems)
  | full h hitems => exact .full (hopen h) (hfull hitems)
  | empty hitems => exact .empty (hdry hitems)
  | closed => exact .closed
  | counted => exact .counted
  | told => exact .told

/-- A look that is answered is a call that does not wait (`tryNow`): `push` and `tryPush` test in
another order, and `pop` counts at once what `tryPop` leaves to be counted. -/
theorem tryNow_of_attempt {reply : Reply α}
    (h : m.attempt k want first = (m', some reply)) : m.tryNow k want = (m', reply) := by
  cases want with
  | push v =>
    simp only [attempt] at h
    simp only [tryNow, tryPush, ← bring_eq_offer]
    split at h
    · obtain ⟨rfl, ⟨⟩⟩ := Prod.mk.inj h
      rfl
    · obtain ⟨rfl, ⟨⟩⟩ := Prod.mk.inj h
      rfl
    · cases (Prod.mk.inj h).2
  | pop =>
    -- An answer is a value or the end of the queue, and `tryPop` finds the same.
    cases attempt_pop h with
    | item htake =>
      obtain ⟨rest, hitems, rfl⟩ := take_item htake
      simp [tryNow, tryPop, remove?, hitems, count, owe, countPop]
    | ended hclosed hitems => simp [tryNow, tryPop, remove?, hitems]

/-- After these turns the queue is in the state of a bounded first-in first-out buffer that has
given the same answers. -/
structure RefinesFifo (capacity : Nat) (turns : History κ α) (m : Monitor κ α) : Prop where
  /-- What was accepted came out in that order, or is queued behind it. -/
  order : accepted turns = popped turns ++ m.queue.items
  room : m.queue.items.length ≤ capacity
  pushed_eq : m.queue.pushed = (accepted turns).length
  /-- What came out is counted, except what callers of `tryPop` have still to count. -/
  popped_eq : m.queue.popped + m.uncounted.length = (popped turns).length
  /-- Those are the callers that took a value with `tryPop` and have not counted it on a turn since:
  at most one value each. -/
  uncounted_nodup : m.uncounted.Nodup
  uncounted_eq : ∀ k, turns.countP (counts k) + m.uncounted.count k = turns.countP (takes k)
  closed_iff : m.queue.closed = true ↔ IsClosed turns
  /-- Every answer was one that the buffer has. -/
  allowed : ∀ before a r after, turns = before ++ (a, r) :: after → Allows capacity before a r
  /-- A value that was brought came out, is queued, was handed back, or its push still waits. -/
  conserved : (brought turns).Perm
    (popped turns ++ m.queue.items ++ handedBack turns ++ waiting m.waiters)
  /-- A value that was handed back does not come out. -/
  apart : (brought turns).Nodup → ∀ v ∈ handedBack turns, v ∉ popped turns ∧ v ∉ m.queue.items
  /-- A call counts as blocked if it had to wait, and once however often it slept. -/
  pushBlocked_eq : m.queue.pushBlocked = turns.countP (stalls Want.isPush)
  popWaited_eq : m.queue.popWaited = turns.countP (stalls Want.isPop)
  /-- A blocking call that need not wait has the effect and the answer of one that does not. -/
  enter_eq : ∀ k want m' reply, m.enter k want = (m', some reply) →
    m.tryNow k want = (m', reply)
  /-- So has one that has waited and need not do so again. -/
  recheck_eq : ∀ k want m' reply, m.waiters.wokenWant? k = some want →
    m.recheck k = some (m', some reply) →
    { m with waiters := m.waiters.resume k }.tryNow k want = (m', reply)

/-- At every moment of a run the queue is a bounded first-in first-out buffer, whatever any number
of callers do in whatever interleaving (`RefinesFifo`). -/
theorem Run.refines_fifo {name : String} {capacity : Nat} (hq : create? name capacity = some q)
    (h : Run q turns m) : RefinesFifo capacity turns m := by
  obtain ⟨-, hq⟩ := Option.ite_none_left_eq_some.mp hq
  obtain rfl := Option.some.inj hq
  have hfits : ∀ {turns : History κ α} {m : Monitor κ α}, Run { name, capacity } turns m →
      m.Fits capacity := fun h => h.invariant ⟨rfl, Nat.zero_le _⟩ fun _ _ hm ht => ht.fits hm
  have hrec := h.recorded
  have hconserved := hrec.order ▸ hrec.conserved
  constructor
  case order => exact hrec.order
  case room => exact (hfits h).2
  case pushed_eq => exact hrec.pushed_eq
  case popped_eq => exact hrec.popped_eq
  case uncounted_nodup => exact hrec.uncounted_nodup
  case uncounted_eq => exact hrec.uncounted_eq
  case closed_iff => exact hrec.closed_iff
  case conserved => exact hconserved
  case pushBlocked_eq => exact hrec.pushBlocked_eq
  case popWaited_eq => exact hrec.popWaited_eq
  case enter_eq =>
    intro k want m' reply henter
    exact tryNow_of_attempt henter
  -- The woken caller looks like one that has just come.
  case recheck_eq =>
    intro k want m' reply hwoken hrecheck
    simp only [recheck, hwoken, Option.map_some, Option.some.injEq] at hrecheck
    exact tryNow_of_attempt hrecheck
  case allowed =>
    intro before a r after hturns
    rw [hturns] at h
    obtain ⟨m₁, m₂, hbefore, hstep⟩ := h.split
    exact (hstep.entry hbefore.begun).allows hbefore.recorded (hfits hbefore)
  case apart =>
    intro hnodup v hback
    -- Every value is in one place, so one that was handed back is in none of the others.
    have hplaces := (List.nodup_append.mp (hconserved.nodup_iff.mp hnodup)).1
    have happart := (List.nodup_append.mp hplaces).2.2
    exact ⟨fun hv => happart v (List.mem_append_left _ hv) v hback rfl,
      fun hv => happart v (List.mem_append_right _ hv) v hback rfl⟩

/-- A producer waits at a full queue until a value comes out; two values come back, one from a full
queue and one from a closed queue, which still gives out what it holds. -/
theorem refines_fifo_of_stalled :
    ∃ (q : Queue Nat) (turns : History Nat Nat) (m : Monitor Nat Nat),
      create? "metadata" 1 = some q ∧ Run q turns m ∧ accepted turns = [5, 6] ∧
      popped turns = [5, 6] ∧ handedBack turns = [7, 8] ∧ m.queue.pushBlocked = 1 ∧
      RefinesFifo 1 turns m := by
  let q : Queue Nat := { name := "metadata", capacity := 1 }
  have hrun : Run q [] ({ queue := q } : Monitor Nat Nat) := .start
  have hrun := hrun.step (.plain (a := .enter 0 (.push 5)) rfl)
  -- The second producer waits; the third does not, and is refused.
  have hrun := hrun.step (.plain (a := .enter 1 (.push 6)) rfl)
  have hrun := hrun.step (.plain (a := .tryPush 2 7) rfl)
  have hrun := hrun.step (.plain (a := .enter 3 .pop) rfl)
  have hrun := hrun.step (.plain (a := .deliver 3) rfl)
  have hrun := hrun.step (.plain (a := .recheck 1) rfl)
  -- After the close a push is refused, and what is queued still comes out.
  have hrun := hrun.step (.plain (a := .close 4) rfl)
  have hrun := hrun.step (.plain (a := .enter 5 (.push 8)) rfl)
  have hrun := hrun.step (.plain (a := .tryPop 6) rfl)
  have hrun := hrun.step (.plain (a := .enter 7 .pop) rfl)
  have hrun := hrun.step (.plain (a := .count 6) rfl)
  have hq : create? "metadata" 1 = some q := rfl
  exact ⟨q, _, _, hq, hrun, rfl, rfl, rfl, rfl, hrun.refines_fifo hq⟩

/-- A value is pushed and taken with `tryPop`: it came out, and `popped` is still 0 until the caller
counts it. -/
theorem popped_lags :
    ∃ (q : Queue Nat) (m m' : Monitor Nat Nat) (turns : History Nat Nat),
      turns = [(.enter 0 (.push 5), some .pushed), (.tryPop 1, some (.item 5))] ∧
      create? "metadata" 1 = some q ∧ Run q turns m ∧ popped turns = [5] ∧
      m.queue.items = [] ∧ m.queue.popped = 0 ∧
      m.step (.count 1) = some (m', none) ∧ m'.queue.popped = 1 := by
  let q : Queue Nat := { name := "metadata", capacity := 1 }
  have hrun : Run q [] ({ queue := q } : Monitor Nat Nat) := .start
  have hrun := hrun.step (.plain (a := .enter 0 (.push 5)) rfl)
  have hrun := hrun.step (.plain (a := .tryPop 1) rfl)
  exact ⟨q, _, _, _, rfl, rfl, hrun, rfl, rfl, rfl, rfl, rfl⟩

end WriteAhead.Queue.Monitor
