import WriteAhead.Proofs.Waiters
import WriteAhead.Queue.Monitor

/-!
# What a blocking call does to a queue, and why nobody sleeps for ever

A critical section of a push or a pop has three outcomes each; `Pushed` and `Popped` list them with
what they leave behind. On a queue that is not closed, every free place is covered while producers
sleep: a woken producer or a notification still to be sent stands for it. The same holds of queued
values and sleeping consumers (`IsAlert`). So when no notification is owed and nobody is woken,
producers sleep only at a full queue and consumers only at an empty one.

## Key results

- `attempt_push`, `attempt_pop`: the outcomes of a critical section
- `Visit.isAlert`, `IsAlert.deliver`: critical sections and notifications keep a queue alert
- `IsAlert.full_of_asleep`, `IsAlert.empty_of_asleep`: who sleeps at a queue at rest, sleeps rightly
-/

namespace WriteAhead.Queue

variable {κ α : Type}

/-- A `bring` that is accepted found the queue open and with room. -/
theorem bring_accepted {q q' : Queue α} {v : α} (h : q.bring v = .accepted q') :
    q.closed = false ∧ q.items.length < q.capacity ∧
      q' = { q with items := q.items ++ [v], pushed := q.pushed + 1 } := by
  unfold bring at h
  split at h
  · split at h <;> exact nomatch h
  · split at h
    · exact nomatch h
    · rename_i hroom hopen
      exact ⟨by simpa using hopen, by omega, (Offer.accepted.inj h).symm⟩

/-- A `bring` that is refused found the queue `closed`, with or without room. -/
theorem bring_refused {q : Queue α} {v : α} (h : q.bring v = .refused) : q.closed = true := by
  unfold bring at h
  split at h
  · split at h
    · assumption
    · exact nomatch h
  · split at h
    · assumption
    · exact nomatch h

/-- A `bring` that has to wait found the queue open and without room. -/
theorem bring_full {q : Queue α} {v : α} (h : q.bring v = .full) :
    q.closed = false ∧ q.capacity ≤ q.items.length := by
  unfold bring at h
  split at h
  · rename_i hfull
    split at h
    · exact nomatch h
    · rename_i hopen
      exact ⟨by simpa using hopen, hfull⟩
  · split at h <;> exact nomatch h

/-- `bring` asks for room first and `offer` whether the queue is `closed`. They come to the same: a
full queue that is closed refuses the value either way. -/
theorem bring_eq_offer (q : Queue α) (v : α) : q.bring v = q.offer v := by
  unfold bring offer
  split
  · -- Without room it is `closed` that decides, in both of them.
    split <;> rfl
  · rfl

/-- A value that `take` gives out is the oldest one, and it is counted. -/
theorem take_item {q q' : Queue α} {v : α} (h : q.take = .item v q') :
    ∃ rest, q.items = v :: rest ∧ q' = { q with items := rest, popped := q.popped + 1 } := by
  unfold take remove? at h
  cases hitems : q.items with
  | nil =>
    simp only [hitems] at h
    split at h <;> exact nomatch h
  | cons v' rest =>
    simp only [hitems] at h
    obtain ⟨rfl, rfl⟩ := Take.item.inj h
    exact ⟨rest, rfl, rfl⟩

/-- `take` says that no value will come only of a queue that is `closed` and empty. -/
theorem take_ended {q : Queue α} (h : q.take = .ended) : q.closed = true ∧ q.items = [] := by
  unfold take remove? at h
  cases hitems : q.items with
  | nil =>
    simp only [hitems] at h
    split at h
    · exact ⟨by assumption, rfl⟩
    · exact nomatch h
  -- A queue with values gives one out, closed or not.
  | cons v rest =>
    simp only [hitems] at h
    exact nomatch h

/-- `take` lets a consumer wait only at a queue that is open and empty. -/
theorem take_empty {q : Queue α} (h : q.take = .empty) : q.closed = false ∧ q.items = [] := by
  unfold take remove? at h
  cases hitems : q.items with
  | nil =>
    simp only [hitems] at h
    split at h
    · exact nomatch h
    · rename_i hopen
      exact ⟨by simpa using hopen, rfl⟩
  -- A queue with values gives one out, so nobody waits at it.
  | cons v rest =>
    simp only [hitems] at h
    exact nomatch h

namespace Monitor

variable {m m' : Monitor κ α} {k : κ}

/-! ## Outcomes of a critical section -/

/-- What a critical section of a push comes to. -/
inductive Pushed (m : Monitor κ α) (k : κ) (v : α) : Monitor κ α → Option (Reply α) → Prop where
  | accepted {q : Queue α} (hbring : m.queue.bring v = .accepted q) :
      Pushed m k v ({ m with queue := q }.owe k .item) (some .pushed)
  | refused (hclosed : m.queue.closed = true) : Pushed m k v m (some (.refused v))
  | full (n : Nat) (hopen : m.queue.closed = false)
      (hfull : m.queue.capacity ≤ m.queue.items.length) :
      Pushed m k v { m with
        queue := { m.queue with pushBlocked := n }
        waiters := m.waiters.sleep k (.push v) } none

/-- What a critical section of a pop comes to. -/
inductive Popped (m : Monitor κ α) (k : κ) : Monitor κ α → Option (Reply α) → Prop where
  | item {v : α} {q : Queue α} (htake : m.queue.take = .item v q) :
      Popped m k ({ m with queue := q }.owe k .room) (some (.item v))
  | ended (hclosed : m.queue.closed = true) (hitems : m.queue.items = []) :
      Popped m k m (some .nothing)
  | empty (n : Nat) (hopen : m.queue.closed = false) (hitems : m.queue.items = []) :
      Popped m k { m with
        queue := { m.queue with popWaited := n }
        waiters := m.waiters.sleep k .pop } none

/-- What `attempt` does for a push is one of the outcomes in `Pushed`. -/
theorem attempt_push {v : α} {first : Bool} {r : Option (Reply α)}
    (h : m.attempt k (.push v) first = (m', r)) : Pushed m k v m' r := by
  simp only [attempt] at h
  split at h
  · rename_i q hbring
    obtain ⟨rfl, rfl⟩ := Prod.mk.inj h
    exact .accepted hbring
  · rename_i hbring
    obtain ⟨rfl, rfl⟩ := Prod.mk.inj h
    exact .refused (bring_refused hbring)
  · rename_i hbring
    obtain ⟨hopen, hfull⟩ := bring_full hbring
    obtain ⟨rfl, rfl⟩ := Prod.mk.inj h
    -- The counter of waits is bumped on the first look only.
    cases first with
    | true => exact .full _ hopen hfull
    | false => exact .full m.queue.pushBlocked hopen hfull

/-- What `attempt` does for a pop is one of the outcomes in `Popped`. -/
theorem attempt_pop {first : Bool} {r : Option (Reply α)}
    (h : m.attempt k .pop first = (m', r)) : Popped m k m' r := by
  simp only [attempt] at h
  split at h
  · rename_i v q htake
    obtain ⟨rfl, rfl⟩ := Prod.mk.inj h
    exact .item htake
  · rename_i htake
    obtain ⟨rfl, rfl⟩ := Prod.mk.inj h
    obtain ⟨hclosed, hitems⟩ := take_ended htake
    exact .ended hclosed hitems
  · rename_i htake
    obtain ⟨hopen, hitems⟩ := take_empty htake
    obtain ⟨rfl, rfl⟩ := Prod.mk.inj h
    -- The counter of waits is bumped on the first look only.
    cases first with
    | true => exact .empty _ hopen hitems
    | false => exact .empty m.queue.popWaited hopen hitems

/-! ## Covered units -/

/-- While some caller whose want is `p` sleeps, `n` units are covered: for each of them such a
caller is woken or a notification `sig` is owed. -/
def Covers (m : Monitor κ α) (p : Want α → Bool) (sig : Signal) (n : Nat) : Prop :=
  (∃ c ∈ m.waiters.asleep, p c.2 = true) →
    n ≤ m.waiters.woken.countP (p ·.2) + m.owed.countP (·.2 = sig)

/-- Free places are covered for producers and queued values for consumers, unless the queue is
closed. -/
def IsAlert (m : Monitor κ α) : Prop :=
  m.queue.closed = false →
    m.Covers Want.isPush .room (m.queue.capacity - m.queue.items.length) ∧
      m.Covers Want.isPop .item m.queue.items.length

/-- Units stay covered (`Covers`) if no other such caller falls asleep, and no more units are lost
than callers woken or notifications owed. -/
theorem Covers.mono {p : Want α → Bool} {sig : Signal} {n n' : Nat} (h : m.Covers p sig n)
    (hasleep : ∀ c ∈ m'.waiters.asleep, p c.2 = true → c ∈ m.waiters.asleep)
    (hcount : n' + m.waiters.woken.countP (p ·.2) + m.owed.countP (·.2 = sig) ≤
      n + m'.waiters.woken.countP (p ·.2) + m'.owed.countP (·.2 = sig)) : m'.Covers p sig n' := by
  rintro ⟨c, hc, hp⟩
  have := h ⟨c, hasleep c hc hp, hp⟩
  omega

/-- Where nobody is `asleep` there is nothing to cover. -/
theorem isAlert_of_nobody (hasleep : m.waiters.asleep = []) : m.IsAlert := by
  refine fun _ => ⟨?_, ?_⟩ <;>
  · rintro ⟨c, hc, -⟩
    rw [hasleep] at hc
    exact absurd hc List.not_mem_nil

/-- With nothing `owed` and nobody `woken`, producers sleep only at a full queue: a free place would
have to be covered, and nothing is left that could. -/
theorem IsAlert.full_of_asleep (h : m.IsAlert) (hopen : m.queue.closed = false)
    (hwoken : m.waiters.woken = []) (howed : m.owed = []) {v : α}
    (hasleep : (k, Want.push v) ∈ m.waiters.asleep) :
    m.queue.capacity ≤ m.queue.items.length := by
  have := (h hopen).1 ⟨_, hasleep, rfl⟩
  rw [hwoken, howed] at this
  simp only [List.countP_nil] at this
  omega

/-- With nothing `owed` and nobody `woken`, consumers sleep only at an empty queue, for the same
reason. -/
theorem IsAlert.empty_of_asleep (h : m.IsAlert) (hopen : m.queue.closed = false)
    (hwoken : m.waiters.woken = []) (howed : m.owed = [])
    (hasleep : (k, Want.pop) ∈ m.waiters.asleep) : m.queue.items = [] := by
  have := (h hopen).2 ⟨_, hasleep, rfl⟩
  rw [hwoken, howed] at this
  exact List.length_eq_zero_iff.mp (by simpa using this)

/-! ## Critical sections -/

/-- `m₀` is `m` as a caller that wants `want` finds it in its critical section: if it had been woken
it no longer counts as such. -/
structure Looks (m m₀ : Monitor κ α) (want : Want α) : Prop where
  queue_eq : m₀.queue = m.queue
  owed_eq : m₀.owed = m.owed
  asleep_eq : m₀.waiters.asleep = m.waiters.asleep
  woken_le : ∀ p : Want α → Bool, m.waiters.woken.countP (p ·.2) ≤
    m₀.waiters.woken.countP (p ·.2) + if p want = true then 1 else 0

/-- A producer that takes a place or falls asleep at a full queue (`Pushed`) keeps the queue alert:
it uses up one cover of a place and owes one for the value. -/
theorem IsAlert.pushed {m₀ : Monitor κ α} {v : α} {r : Option (Reply α)} (h : m.IsAlert)
    (hlook : m.Looks m₀ (.push v)) (hpushed : Pushed m₀ k v m' r) : m'.IsAlert := by
  obtain ⟨hqueue, howed, hasleep, hwoken⟩ := hlook
  have hpush : m.waiters.woken.countP (·.2.isPush) ≤ m₀.waiters.woken.countP (·.2.isPush) + 1 :=
    hwoken Want.isPush
  have hpop : m.waiters.woken.countP (·.2.isPop) ≤ m₀.waiters.woken.countP (·.2.isPop) :=
    hwoken Want.isPop
  cases hpushed with
  | accepted hbring =>
    obtain ⟨hopen, hlt, rfl⟩ := bring_accepted hbring
    rw [hqueue] at hopen hlt
    obtain ⟨hroom, hitem⟩ := h hopen
    -- The producer may have been woken for the place that it takes, and it owes word of its value.
    refine fun _ => ⟨hroom.mono (fun c hc _ => hasleep ▸ hc) ?_,
      hitem.mono (fun c hc _ => hasleep ▸ hc) ?_⟩
    · simp only [owe, howed, hqueue, List.countP_append, List.length_append, List.length_singleton]
      simp only [List.countP_singleton, reduceCtorEq, decide_false, Bool.false_eq_true, if_false]
      omega
    · simp only [owe, howed, hqueue, List.countP_append, List.length_append, List.length_singleton]
      simp only [List.countP_singleton, decide_true, if_true]
      omega
  | refused hclosed =>
    intro hopen
    rw [hclosed] at hopen
    exact absurd hopen (by simp)
  | full n hopen hfull =>
    rw [hqueue] at hopen hfull
    obtain ⟨-, hitem⟩ := h hopen
    -- No place is free, so none needs to be covered for the new sleeper.
    refine fun _ => ⟨fun _ => by simp only [hqueue]; omega, hitem.mono ?_ ?_⟩
    · intro c hc hp
      simp only [Waiters.sleep, List.mem_append, List.mem_singleton] at hc
      rcases hc with hc | rfl
      · exact hasleep ▸ hc
      · exact absurd hp (by simp [Want.isPop, Want.isPush])
    · simp only [Waiters.sleep, howed, hqueue]
      omega

/-- Whoever takes a value from an alert queue and owes a `room` for its place keeps the queue alert.
That `popped` counts the value, or not yet, does not matter. -/
theorem IsAlert.removed {m₀ : Monitor κ α} {v : α} {rest : List α} (h : m.IsAlert)
    (hlook : m.Looks m₀ .pop) (hitems : m.queue.items = v :: rest)
    (hcapacity : m'.queue.capacity = m.queue.capacity) (hclosed : m'.queue.closed = m.queue.closed)
    (hrest : m'.queue.items = rest) (hwaiters : m'.waiters = m₀.waiters)
    (howes : m'.owed = m₀.owed ++ [(k, .room)]) : m'.IsAlert := by
  obtain ⟨-, howed, hasleep, hwoken⟩ := hlook
  have hpush : m.waiters.woken.countP (·.2.isPush) ≤ m₀.waiters.woken.countP (·.2.isPush) :=
    hwoken Want.isPush
  have hpop : m.waiters.woken.countP (·.2.isPop) ≤ m₀.waiters.woken.countP (·.2.isPop) + 1 :=
    hwoken Want.isPop
  intro hopen
  obtain ⟨hroom, hitem⟩ := h (hclosed ▸ hopen)
  rw [hitems, List.length_cons] at hroom hitem
  -- The consumer may have been woken for the value that it takes, and it owes word of the place.
  refine ⟨hroom.mono (fun c hc _ => hasleep ▸ hwaiters ▸ hc) ?_,
    hitem.mono (fun c hc _ => hasleep ▸ hwaiters ▸ hc) ?_⟩
  · simp only [howes, howed, hwaiters, hcapacity, hrest, List.countP_append]
    simp only [List.countP_singleton, decide_true, if_true]
    omega
  · simp only [howes, howed, hwaiters, hrest, List.countP_append]
    simp only [List.countP_singleton, reduceCtorEq, decide_false, Bool.false_eq_true, if_false]
    omega

/-- A consumer that takes a value or falls asleep at an empty queue (`Popped`) keeps the queue
alert. -/
theorem IsAlert.popped {m₀ : Monitor κ α} {r : Option (Reply α)} (h : m.IsAlert)
    (hlook : m.Looks m₀ .pop) (hpopped : Popped m₀ k m' r) : m'.IsAlert := by
  obtain ⟨hqueue, howed, hasleep, hwoken⟩ := id hlook
  have hpush : m.waiters.woken.countP (·.2.isPush) ≤ m₀.waiters.woken.countP (·.2.isPush) :=
    hwoken Want.isPush
  cases hpopped with
  | item htake =>
    obtain ⟨rest, hitems, rfl⟩ := take_item htake
    rw [hqueue] at hitems
    exact h.removed hlook hitems (by simp [owe, hqueue]) (by simp [owe, hqueue]) rfl rfl rfl
  | ended hclosed =>
    intro hopen
    rw [hclosed] at hopen
    exact absurd hopen (by simp)
  -- Nothing is queued, so nothing has to be covered for the new sleeper.
  | empty n hopen hitems =>
    rw [hqueue] at hopen hitems
    obtain ⟨hroom, -⟩ := h hopen
    refine fun _ => ⟨hroom.mono ?_ ?_, fun _ => by simp [hqueue, hitems]⟩
    · intro c hc hp
      simp only [Waiters.sleep, List.mem_append, List.mem_singleton] at hc
      rcases hc with hc | rfl
      · exact hasleep ▸ hc
      · exact absurd hp (by simp [Want.isPush])
    · simp only [Waiters.sleep, howed, hqueue]
      omega

/-! ## Notifications -/

/-- A `notifyOne` leaves all woken callers awake. -/
private theorem woken_le_notifyOne (w : Waiters κ (Want α)) (p q : Want α → Bool) :
    w.woken.countP (p ·.2) ≤ (w.notifyOne q).woken.countP (p ·.2) := by
  unfold Waiters.notifyOne
  split
  · simp
  · exact Nat.le_refl _

private theorem woken_le_notifyAll (w : Waiters κ (Want α)) (p q : Want α → Bool) :
    w.woken.countP (p ·.2) ≤ (w.notifyAll q).woken.countP (p ·.2) := by
  simp [Waiters.notifyAll]

/-- A notification for another `Signal` changes nothing that is covered. -/
private theorem Covers.notify_other {p : Want α → Bool} {sig : Signal} {n : Nat}
    {w : Waiters κ (Want α)} {owed : List (κ × Signal)} (h : m.Covers p sig n)
    (hasleep : w.asleep ⊆ m.waiters.asleep)
    (hwoken : m.waiters.woken.countP (p ·.2) ≤ w.woken.countP (p ·.2))
    (howed : m.owed.countP (·.2 = sig) = owed.countP (·.2 = sig)) :
    Covers { m with waiters := w, owed } p sig n :=
  h.mono (fun c hc _ => hasleep hc) (by simp only; omega)

/-- Sending an owed notification wakes somebody for the unit that it stood for, so the unit is still
covered. -/
private theorem Covers.notify_self {p : Want α → Bool} {sig : Signal} {n : Nat}
    {owed : List (κ × Signal)} (h : m.Covers p sig n)
    (howed : m.owed.countP (·.2 = sig) = owed.countP (·.2 = sig) + 1) :
    Covers { m with waiters := m.waiters.notifyOne p, owed } p sig n := by
  rintro ⟨c, hc, hp⟩
  have hold : c ∈ m.waiters.asleep := m.waiters.asleep_notifyOne_subset p hc
  have hcover := h ⟨c, hold, hp⟩
  -- Somebody sleeps for the unit, so the notification finds a caller to wake.
  have hwoken : (m.waiters.notifyOne p).woken.countP (p ·.2) =
      m.waiters.woken.countP (p ·.2) + 1 := by
    unfold Waiters.notifyOne
    split
    · rename_i c' hc'
      simp [List.find?_some hc']
    · rename_i hnone
      exact absurd hp (List.find?_eq_none.mp hnone c hold)
  simp only at hcover ⊢
  omega

/-- After `close` nobody is to be kept waiting, so nothing has to be covered. -/
theorem IsAlert.close (m : Monitor κ α) (k : κ) : (m.close k).IsAlert := fun hopen =>
  absurd hopen (by simp [Monitor.close, owe, Queue.close])

variable [DecidableEq κ]

/-- A critical section of a blocking call, on the first look or on a later one. -/
def Visit (m : Monitor κ α) (k : κ) (want : Want α) (first : Bool) (m' : Monitor κ α)
    (r : Option (Reply α)) : Prop :=
  ∃ w, m.waiters.Look k want first w ∧ { m with waiters := w }.attempt k want first = (m', r)

/-- The first look of a blocking call is a `Visit`. -/
theorem visit_enter {want : Want α} {r : Option (Reply α)} (h : m.enter k want = (m', r)) :
    m.Visit k want true m' r := ⟨_, .first, h⟩

/-- A woken caller looks again for what it slept for: a `recheck` is a `Visit` that is not the
first. -/
theorem visit_recheck {r : Option (Reply α)} (h : m.recheck k = some (m', r)) :
    ∃ want, m.waiters.wokenWant? k = some want ∧ m.Visit k want false m' r := by
  obtain ⟨want, hwant, heq⟩ := Option.map_eq_some_iff.mp h
  exact ⟨want, hwant, _, .again hwant, heq⟩

/-- A caller that looks (`Waiters.Look`) finds the queue as it is, and counts as woken no longer. -/
theorem Looks.of_look {want : Want α} {first : Bool} {w : Waiters κ (Want α)}
    (h : m.waiters.Look k want first w) : m.Looks { m with waiters := w } want := by
  cases h with
  | first => exact ⟨rfl, rfl, rfl, fun _ => Nat.le_add_right _ _⟩
  | again hwant =>
    refine ⟨rfl, rfl, rfl, fun p => ?_⟩
    have hcount := (Waiters.woken_perm_resume hwant).countP_eq (p ·.2)
    rw [List.countP_cons] at hcount
    exact Nat.le_of_eq hcount

namespace Visit

variable {want : Want α} {first : Bool} {r : Option (Reply α)}

/-- A `Visit` for room is one of the outcomes in `Pushed`. -/
theorem push {v : α} (h : m.Visit k (.push v) first m' r) :
    ∃ m₀, m.Looks m₀ (.push v) ∧ Pushed m₀ k v m' r := by
  obtain ⟨w, hlook, hattempt⟩ := h
  exact ⟨_, .of_look hlook, attempt_push hattempt⟩

/-- A `Visit` for a value is one of the outcomes in `Popped`. -/
theorem pop (h : m.Visit k .pop first m' r) : ∃ m₀, m.Looks m₀ .pop ∧ Popped m₀ k m' r := by
  obtain ⟨w, hlook, hattempt⟩ := h
  exact ⟨_, .of_look hlook, attempt_pop hattempt⟩

/-- A caller that gets no reply is put among the sleepers (`Waiters.sleep`). -/
theorem waiters (h : m.Visit k want first m' r) :
    ∃ w, m.waiters.Look k want first w ∧
      m'.waiters = if r = none then w.sleep k want else w := by
  obtain ⟨w, hlook, hattempt⟩ := h
  refine ⟨w, hlook, ?_⟩
  cases want with
  | push v => cases attempt_push hattempt <;> rfl
  | pop => cases attempt_pop hattempt <;> rfl

/-- What a push does to the `items` of a queue. -/
theorem push_cases {v : α} (h : m.Visit k (.push v) first m' r) :
    (r = some .pushed ∧ m.queue.closed = false ∧ m'.queue.items = m.queue.items ++ [v] ∧
        m'.queue.closed = m.queue.closed) ∨
      (r = some (.refused v) ∧ m.queue.closed = true ∧ m'.queue.items = m.queue.items ∧
        m'.queue.closed = m.queue.closed) ∨
      (r = none ∧ m'.queue.items = m.queue.items ∧ m'.queue.closed = m.queue.closed) := by
  obtain ⟨m₀, ⟨hqueue, -, -, -⟩, hpushed⟩ := h.push
  rw [← hqueue]
  cases hpushed with
  | accepted hbring =>
    obtain ⟨hopen, -, rfl⟩ := bring_accepted hbring
    exact .inl ⟨rfl, hopen, rfl, rfl⟩
  | refused hclosed => exact .inr (.inl ⟨rfl, hclosed, rfl, rfl⟩)
  | full => exact .inr (.inr ⟨rfl, rfl, rfl⟩)

/-- What a pop does to the `items` of a queue. -/
theorem pop_cases (h : m.Visit k .pop first m' r) :
    (∃ v, r = some (.item v) ∧ m.queue.items = v :: m'.queue.items ∧
        m'.queue.closed = m.queue.closed) ∨
      (r = some .nothing ∧ m.queue.closed = true ∧ m'.queue.items = m.queue.items ∧
        m'.queue.closed = m.queue.closed) ∨
      (r = none ∧ m'.queue.items = m.queue.items ∧ m'.queue.closed = m.queue.closed) := by
  obtain ⟨m₀, ⟨hqueue, -, -, -⟩, hpopped⟩ := h.pop
  rw [← hqueue]
  cases hpopped with
  | item htake =>
    obtain ⟨rest, hitems, rfl⟩ := take_item htake
    exact .inl ⟨_, rfl, hitems, rfl⟩
  | ended hclosed hitems => exact .inr (.inl ⟨rfl, hclosed, rfl, rfl⟩)
  | empty => exact .inr (.inr ⟨rfl, rfl, rfl⟩)

/-- A push counts as `pushed` if it is accepted, and never as `popped`. -/
theorem push_counts {v : α} (h : m.Visit k (.push v) first m' r) :
    m'.queue.popped = m.queue.popped ∧
      (r = some .pushed → m'.queue.pushed = m.queue.pushed + 1) ∧
      (r ≠ some .pushed → m'.queue.pushed = m.queue.pushed) := by
  obtain ⟨m₀, ⟨hqueue, -, -, -⟩, hpushed⟩ := h.push
  rw [← hqueue]
  cases hpushed with
  | accepted hbring =>
    obtain ⟨-, -, rfl⟩ := bring_accepted hbring
    exact ⟨rfl, fun _ => rfl, fun hr => absurd rfl hr⟩
  | refused | full => exact ⟨rfl, nofun, fun _ => rfl⟩

/-- A pop counts as `popped` if it takes a value, and never as `pushed`. -/
theorem pop_counts (h : m.Visit k .pop first m' r) :
    m'.queue.pushed = m.queue.pushed ∧
      (∀ v, r = some (.item v) → m'.queue.popped = m.queue.popped + 1) ∧
      ((∀ v, r ≠ some (.item v)) → m'.queue.popped = m.queue.popped) := by
  obtain ⟨m₀, ⟨hqueue, -, -, -⟩, hpopped⟩ := h.pop
  rw [← hqueue]
  cases hpopped with
  | item htake =>
    obtain ⟨rest, -, rfl⟩ := take_item htake
    exact ⟨rfl, fun _ _ => rfl, fun hr => absurd rfl (hr _)⟩
  | ended | empty => exact ⟨rfl, nofun, fun _ => rfl⟩

/-- What a critical section adds to `owed` is its own: an `item` or a `room`, to one caller each. -/
theorem owed_append (h : m.Visit k want first m' r) :
    ∃ more, m'.owed = m.owed ++ more ∧ ∀ x ∈ more, x.1 = k ∧ (x.2 = .item ∨ x.2 = .room) := by
  cases want with
  | push v =>
    obtain ⟨m₀, ⟨-, howed, -, -⟩, hpushed⟩ := h.push
    rw [← howed]
    -- Only what goes in or comes out is told, by the caller that did it.
    cases hpushed with
    | accepted => exact ⟨[(k, .item)], rfl, by simp⟩
    | refused | full => exact ⟨[], (List.append_nil _).symm, by simp⟩
  | pop =>
    obtain ⟨m₀, ⟨-, howed, -, -⟩, hpopped⟩ := h.pop
    rw [← howed]
    cases hpopped with
    | item => exact ⟨[(k, .room)], rfl, by simp⟩
    | ended | empty => exact ⟨[], (List.append_nil _).symm, by simp⟩

/-- Whatever is in `owed` after a critical section was there before it, or is its own `item` or
`room`. -/
theorem owed (h : m.Visit k want first m' r) :
    ∀ x ∈ m'.owed, x ∈ m.owed ∨ (x.1 = k ∧ (x.2 = .item ∨ x.2 = .room)) := by
  obtain ⟨more, howed, hmore⟩ := h.owed_append
  intro x hx
  rw [howed] at hx
  exact (List.mem_append.mp hx).imp_right (hmore x)

/-- What the others have in `owed` does not change. -/
theorem countP_owed {b : κ} (h : m.Visit k want first m' r) (hb : k ≠ b) :
    m'.owed.countP (·.1 = b) = m.owed.countP (·.1 = b) := by
  obtain ⟨more, howed, hmore⟩ := h.owed_append
  have hnone : more.countP (·.1 = b) = 0 := by
    rw [List.countP_eq_zero]
    intro x hx
    simpa [(hmore x hx).1] using hb
  rw [howed, List.countP_append, hnone, Nat.add_zero]

/-- A critical section (`Visit`) keeps a queue alert. -/
theorem isAlert (h : m.Visit k want first m' r) (halert : m.IsAlert) : m'.IsAlert := by
  cases want with
  | push v =>
    obtain ⟨m₀, hlooks, hpushed⟩ := h.push
    exact halert.pushed hlooks hpushed
  | pop =>
    obtain ⟨m₀, hlooks, hpopped⟩ := h.pop
    exact halert.popped hlooks hpopped

/-- The `capacity` of a queue is for ever. -/
theorem capacity_eq (h : m.Visit k want first m' r) :
    m'.queue.capacity = m.queue.capacity := by
  -- None of the six outcomes touches the capacity.
  cases want with
  | push v =>
    obtain ⟨m₀, ⟨hqueue, -, -, -⟩, hpushed⟩ := h.push
    cases hpushed with
    | accepted hbring => obtain ⟨-, -, rfl⟩ := bring_accepted hbring; rw [← hqueue]; rfl
    | refused => rw [hqueue]
    | full => rw [← hqueue]
  | pop =>
    obtain ⟨m₀, ⟨hqueue, -, -, -⟩, hpopped⟩ := h.pop
    cases hpopped with
    | item htake => obtain ⟨rest, -, rfl⟩ := take_item htake; rw [← hqueue]; rfl
    | ended => rw [hqueue]
    | empty => rw [← hqueue]

end Visit

/-- By `deliver` a caller sends the first notification that it owes. -/
theorem deliver_some (h : m.deliver k = some m') :
    ∃ sig, m.owed.Perm ((k, sig) :: m.owed.eraseP (·.1 = k)) ∧
      m' = { m with owed := m.owed.eraseP (·.1 = k) }.notify sig := by
  obtain ⟨⟨k', sig⟩, hc, rfl⟩ := Option.map_eq_some_iff.mp h
  obtain rfl : k' = k := by simpa using List.find?_some hc
  exact ⟨sig, List.perm_cons_eraseP hc, rfl⟩

/-- Sending a notification (`deliver`) does not touch the queue. -/
theorem deliver_queue (h : m.deliver k = some m') : m'.queue = m.queue := by
  obtain ⟨sig, -, rfl⟩ := deliver_some h
  cases sig <;> rfl

theorem deliver_uncounted (h : m.deliver k = some m') : m'.uncounted = m.uncounted := by
  obtain ⟨sig, -, rfl⟩ := deliver_some h
  cases sig <;> rfl

/-- Whoever sends a notification has one less in `owed`. -/
theorem deliver_owed_perm (h : m.deliver k = some m') :
    ∃ sig, m.owed.Perm ((k, sig) :: m'.owed) := by
  obtain ⟨sig, hperm, rfl⟩ := deliver_some h
  refine ⟨sig, ?_⟩
  cases sig <;> exact hperm

theorem deliver_owed (h : m.deliver k = some m') : m'.owed ⊆ m.owed := by
  obtain ⟨sig, hperm⟩ := deliver_owed_perm h
  exact fun x hx => hperm.mem_iff.mpr (List.mem_cons_of_mem _ hx)

/-- A `deliver` wakes callers and sends nobody away. -/
theorem deliver_all (h : m.deliver k = some m') : m'.waiters.all.Perm m.waiters.all := by
  obtain ⟨sig, -, rfl⟩ := deliver_some h
  cases sig with
  | room | item => exact Waiters.all_notifyOne _ _
  | noMoreItems | noMoreRoom => exact Waiters.all_notifyAll _ _

/-- Sending a notification (`deliver`) keeps the queue alert. -/
theorem IsAlert.deliver (h : m.IsAlert) (hd : m.deliver k = some m') : m'.IsAlert := by
  obtain ⟨sig, hperm, rfl⟩ := deliver_some hd
  have hcount : ∀ s, m.owed.countP (·.2 = s) =
      (m.owed.eraseP (·.1 = k)).countP (·.2 = s) + if sig = s then 1 else 0 := by
    intro s
    rw [hperm.countP_eq, List.countP_cons]
    simp
  -- The signal that is sent covered a unit, which the caller that it wakes covers now.
  intro hopen
  have hopen : m.queue.closed = false := by cases sig <;> exact hopen
  obtain ⟨hroom, hitem⟩ := h hopen
  cases sig with
  | room =>
    exact ⟨hroom.notify_self (hcount .room),
      hitem.notify_other (m.waiters.asleep_notifyOne_subset _) (woken_le_notifyOne ..)
        (hcount .item)⟩
  | item =>
    exact ⟨hroom.notify_other (m.waiters.asleep_notifyOne_subset _) (woken_le_notifyOne ..)
        (hcount .room), hitem.notify_self (hcount .item)⟩
  | noMoreItems =>
    exact ⟨hroom.notify_other (m.waiters.asleep_notifyAll_subset _) (woken_le_notifyAll ..)
        (hcount .room),
      hitem.notify_other (m.waiters.asleep_notifyAll_subset _) (woken_le_notifyAll ..)
        (hcount .item)⟩
  | noMoreRoom =>
    exact ⟨hroom.notify_other (m.waiters.asleep_notifyAll_subset _) (woken_le_notifyAll ..)
        (hcount .room),
      hitem.notify_other (m.waiters.asleep_notifyAll_subset _) (woken_le_notifyAll ..)
        (hcount .item)⟩

end Monitor

end WriteAhead.Queue
