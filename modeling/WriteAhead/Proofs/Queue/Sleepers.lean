import WriteAhead.Proofs.Queue.Run

/-!
# Who sleeps at a queue at rest

An insertion or a removal wakes one sleeper only, after its critical section, and the caller that it
wakes may come too late because another one took the value or the place first. Nobody sleeps for
ever all the same: a queue stays alert on every turn, and after a close the notifications for those
who still sleep are owed until they are sent.

## Key results

- `Turn.isAlert`, `Turn.dismisses`: no turn forgets a sleeper
- `Run.sleepers`: who sleeps when nothing is owed and nobody is woken, sleeps rightly
-/

namespace WriteAhead.Queue

variable {κ α : Type}

/-- The notification by which a close reaches a sleeper. -/
def Want.dismissal : Want α → Signal
  | .push _ => .noMoreRoom
  | .pop => .noMoreItems

/-- A notification for one caller (`wakesOne`) is not the `dismissal` of a close. -/
theorem Signal.ne_dismissal {sig : Signal} {want want' : Want α}
    (h : sig.wakesOne want = true) : sig ≠ want'.dismissal := by
  rintro rfl
  cases want' <;> exact nomatch h

namespace Monitor

/-- Those who still sleep at a closed queue are owed the notification of the close. -/
def Dismisses (m : Monitor κ α) : Prop :=
  m.queue.closed = true → ∀ c ∈ m.waiters.asleep, ∃ k, (k, c.2.dismissal) ∈ m.owed

/-- A queue of this capacity holds no more than that. -/
def Fits (capacity : Nat) (m : Monitor κ α) : Prop :=
  m.queue.capacity = capacity ∧ m.queue.items.length ≤ capacity

variable [DecidableEq κ] {m m' : Monitor κ α} {capacity : Nat}

/-! ## Critical sections -/

section Visit

variable {k : κ} {want : Want α} {first : Bool} {r : Option (Reply α)}

/-- A `Visit` forgets nothing that is owed, and nobody falls asleep at a closed queue. -/
theorem Visit.closed (h : m.Visit k want first m' r) :
    m'.queue.closed = m.queue.closed ∧ m.owed ⊆ m'.owed ∧
      (m.queue.closed = true → m'.waiters.asleep = m.waiters.asleep) := by
  cases want with
  | push v =>
    obtain ⟨m₀, ⟨hqueue, howed, hasleep, -⟩, hpushed⟩ := h.push
    rw [← hqueue, ← howed, ← hasleep]
    cases hpushed with
    | accepted hbring =>
      obtain ⟨-, -, rfl⟩ := bring_accepted hbring
      exact ⟨rfl, List.subset_append_left _ _, fun _ => rfl⟩
    | refused => exact ⟨rfl, List.Subset.refl _, fun _ => rfl⟩
    -- At a closed queue nobody is told to wait for room.
    | full n hopen =>
      refine ⟨rfl, List.Subset.refl _, fun hclosed => ?_⟩
      rw [hopen] at hclosed
      exact nomatch hclosed
  | pop =>
    obtain ⟨m₀, ⟨hqueue, howed, hasleep, -⟩, hpopped⟩ := h.pop
    rw [← hqueue, ← howed, ← hasleep]
    cases hpopped with
    | item htake =>
      obtain ⟨rest, -, rfl⟩ := take_item htake
      exact ⟨rfl, List.subset_append_left _ _, fun _ => rfl⟩
    | ended => exact ⟨rfl, List.Subset.refl _, fun _ => rfl⟩
    -- Nor for a value.
    | empty n hopen =>
      refine ⟨rfl, List.Subset.refl _, fun hclosed => ?_⟩
      rw [hopen] at hclosed
      exact nomatch hclosed

/-- A push at a `closed` queue is refused and changes nothing. -/
theorem Visit.push_of_closed {v : α} (h : m.Visit k (.push v) first m' r)
    (hclosed : m.queue.closed = true) :
    r = some (.refused v) ∧ m'.queue = m.queue ∧ m'.owed = m.owed := by
  obtain ⟨m₀, ⟨hqueue, howed, -, -⟩, hpushed⟩ := h.push
  rw [← hqueue] at hclosed
  rw [← hqueue, ← howed]
  cases hpushed with
  | accepted hbring => exact absurd (hclosed.symm.trans (bring_accepted hbring).1) nofun
  | refused => exact ⟨rfl, rfl, rfl⟩
  | full n hopen => exact absurd (hclosed.symm.trans hopen) nofun

/-- A pop at a `closed` queue takes the oldest value or finds that there is none. -/
theorem Visit.pop_of_closed (h : m.Visit k .pop first m' r) (hclosed : m.queue.closed = true) :
    (∃ v rest, r = some (.item v) ∧ m.queue.items = v :: rest ∧
        m'.queue = { m.queue with items := rest, popped := m.queue.popped + 1 } ∧
        m'.owed = m.owed ++ [(k, .room)]) ∨
      (r = some .nothing ∧ m.queue.items = [] ∧ m'.queue = m.queue ∧ m'.owed = m.owed) := by
  obtain ⟨m₀, ⟨hqueue, howed, -, -⟩, hpopped⟩ := h.pop
  rw [← hqueue] at hclosed
  rw [← hqueue, ← howed]
  cases hpopped with
  | item htake =>
    obtain ⟨rest, hitems, rfl⟩ := take_item htake
    exact .inl ⟨_, rest, rfl, hitems, rfl, rfl⟩
  | ended _ hitems => exact .inr ⟨rfl, hitems, rfl, rfl⟩
  | empty n hopen => exact absurd (hclosed.symm.trans hopen) nofun

/-- A value is accepted only where there is room for it, so the queue still `Fits`. -/
theorem Visit.fits (h : m.Visit k want first m' r) (hfits : m.Fits capacity) :
    m'.Fits capacity := by
  obtain ⟨hcapacity, hlen⟩ := hfits
  refine ⟨h.capacity_eq.trans hcapacity, ?_⟩
  cases want with
  | push v =>
    obtain ⟨m₀, ⟨hqueue, -, -, -⟩, hpushed⟩ := h.push
    rw [← hqueue] at hcapacity hlen
    cases hpushed with
    | accepted hbring =>
      obtain ⟨-, hroom, rfl⟩ := bring_accepted hbring
      show (m₀.queue.items ++ [v]).length ≤ capacity
      -- There was room for the value that went in.
      rw [List.length_append, List.length_singleton]
      omega
    | refused => exact hlen
    | full => exact hlen
  | pop =>
    obtain ⟨m₀, ⟨hqueue, -, -, -⟩, hpopped⟩ := h.pop
    rw [← hqueue] at hlen
    cases hpopped with
    | item htake =>
      obtain ⟨rest, hitems, rfl⟩ := take_item htake
      rw [hitems, List.length_cons] at hlen
      exact Nat.le_of_succ_le hlen
    | ended => exact hlen
    | empty => exact hlen

end Visit

/-! ## Notifications -/

section Wake

variable {k : κ} {sig : Signal} {c : κ × Want α} {before after : List (κ × Want α)}

/-- Who is `asleep` after a `wake` was so before it. -/
theorem mem_asleep_of_wake (hasleep : m.waiters.asleep = before ++ c :: after) {x : κ × Want α}
    (hx : x ∈ (m.wake k before c after).waiters.asleep) : x ∈ m.waiters.asleep := by
  rw [hasleep]
  rcases List.mem_append.mp hx with hx | hx
  · exact List.mem_append_left _ hx
  · exact List.mem_append_right _ (List.mem_cons_of_mem _ hx)

/-- Whichever sleeper a notification wakes (`wake`), it covers the unit that the notification stood
for. -/
theorem IsAlert.wake (h : m.IsAlert) (howes : m.owed.find? (·.1 = k) = some (k, sig))
    (hasleep : m.waiters.asleep = before ++ c :: after) (hone : sig.wakesOne c.2 = true) :
    (m.wake k before c after).IsAlert := by
  have howed : ∀ s, m.owed.countP (·.2 = s) =
      (m.owed.eraseP (·.1 = k)).countP (·.2 = s) + if sig = s then 1 else 0 := by
    intro s
    rw [(List.perm_cons_eraseP howes).countP_eq, List.countP_cons]
    simp
  have hwoken : ∀ p : Want α → Bool, (m.waiters.woken ++ [c]).countP (p ·.2) =
      m.waiters.woken.countP (p ·.2) + if p c.2 then 1 else 0 := by
    intro p
    rw [List.countP_append, List.countP_singleton]
  intro hopen
  obtain ⟨hroom, hitem⟩ := h hopen
  have hone : (sig = .room → c.2.isPush = true) ∧ (sig = .item → c.2.isPop = true) :=
    ⟨fun heq => by rwa [heq] at hone, fun heq => by rwa [heq] at hone⟩
  -- One notification less is owed, and one more caller is woken for the same unit.
  have hpush := hwoken Want.isPush
  have hpop := hwoken Want.isPop
  have howed_room := howed .room
  have howed_item := howed .item
  refine ⟨hroom.mono (fun x hx _ => mem_asleep_of_wake hasleep hx) ?_,
    hitem.mono (fun x hx _ => mem_asleep_of_wake hasleep hx) ?_⟩
  · simp only [Monitor.wake]
    by_cases hsig : sig = .room
    · simp only [hsig, hone.1 hsig, if_true] at hpush howed_room
      omega
    · simp only [hsig, if_false] at howed_room
      omega
  · simp only [Monitor.wake]
    by_cases hsig : sig = .item
    · simp only [hsig, hone.2 hsig, if_true] at hpop howed_item
      omega
    · simp only [hsig, if_false] at howed_item
      omega

/-- A notification of another kind leaves the `dismissal` of a close owed. -/
private theorem dismissal_of_eraseP {want : Want α} {k' : κ}
    (howes : m.owed.find? (·.1 = k) = some (k, sig)) (hsig : sig ≠ want.dismissal)
    (h : (k', want.dismissal) ∈ m.owed) : (k', want.dismissal) ∈ m.owed.eraseP (·.1 = k) := by
  rcases List.mem_cons.mp ((List.perm_cons_eraseP howes).mem_iff.mp h) with heq | hmem
  · exact absurd (Prod.mk.inj heq).2.symm hsig
  · exact hmem

omit [DecidableEq κ] in
/-- Who is `asleep` after a notification was sent slept before it and is not dismissed by it. -/
private theorem asleep_notify {x : κ × Want α} (hx : x ∈ (m.notify sig).waiters.asleep) :
    x ∈ m.waiters.asleep ∧ sig ≠ x.2.dismissal := by
  cases sig with
  | room | item =>
    refine ⟨Waiters.asleep_notifyOne_subset _ _ hx, ?_⟩
    cases x.2 <;> exact nofun
  | noMoreItems =>
    -- All callers of that kind were woken, so who sleeps still is of the other.
    have hother := Waiters.not_of_mem_asleep_notifyAll hx
    refine ⟨Waiters.asleep_notifyAll_subset _ _ hx, ?_⟩
    cases hwant : x.2 with
    | push v => exact nofun
    | pop =>
      rw [hwant] at hother
      exact nomatch hother
  | noMoreRoom =>
    have hother := Waiters.not_of_mem_asleep_notifyAll hx
    refine ⟨Waiters.asleep_notifyAll_subset _ _ hx, ?_⟩
    cases hwant : x.2 with
    | push v =>
      rw [hwant] at hother
      exact nomatch hother
    | pop => exact nofun

end Wake

/-! ## Turns -/

/-- Every `Turn` keeps a queue alert. -/
theorem Turn.isAlert (h : m.Turn m') (halert : m.IsAlert) : m'.IsAlert := by
  cases h with
  | visited hvisit => exact hvisit.isAlert halert
  | unchanged => exact halert
  -- The value is not counted yet, which covering does not ask about.
  | taken hitems =>
    have hlook : m.Looks m .pop := ⟨rfl, rfl, rfl, fun _ => Nat.le_add_right _ _⟩
    exact halert.removed hlook hitems rfl rfl rfl rfl rfl
  | counted => exact halert
  | closed k => exact IsAlert.close m k
  | delivered hdeliver => exact halert.deliver hdeliver
  | woke howes hasleep hone => exact halert.wake howes hasleep hone

/-- By a `Turn` the notifications of a close are owed until nobody sleeps who has to hear of it. -/
theorem Turn.dismisses (h : m.Turn m') (hm : m.Dismisses) : m'.Dismisses := by
  cases h with
  | visited hvisit =>
    obtain ⟨hclosed, howed, hasleep⟩ := hvisit.closed
    intro hc c hmem
    rw [hclosed] at hc
    rw [hasleep hc] at hmem
    obtain ⟨k, hk⟩ := hm hc c hmem
    exact ⟨k, howed hk⟩
  | unchanged | counted => exact hm
  | taken =>
    -- The place is owed to a producer on top of what was owed before.
    intro hc c hmem
    obtain ⟨k, hk⟩ := hm hc c hmem
    exact ⟨k, List.mem_append_left _ hk⟩
  | closed k =>
    -- The caller that closes owes both notifications.
    intro _ c _
    refine ⟨k, ?_⟩
    simp only [Monitor.close, owe, List.append_assoc]
    apply List.mem_append_right
    cases c.2 <;> simp [Want.dismissal]
  | @delivered k _ hdeliver =>
    obtain ⟨⟨k', sig⟩, howes, rfl⟩ := Option.map_eq_some_iff.mp hdeliver
    obtain rfl : k' = k := by simpa using List.find?_some howes
    intro hc c hmem
    obtain ⟨hold, hsig⟩ := asleep_notify hmem
    obtain ⟨k, hk⟩ := hm (by cases sig <;> exact hc) c hold
    -- What was sent was not the dismissal of a caller that still sleeps.
    have hstill := dismissal_of_eraseP howes hsig hk
    exact ⟨k, by cases sig <;> exact hstill⟩
  | woke howes hasleep hone =>
    intro hc c hmem
    obtain ⟨k, hk⟩ := hm hc c (mem_asleep_of_wake hasleep hmem)
    exact ⟨k, dismissal_of_eraseP howes (Signal.ne_dismissal hone) hk⟩

omit [DecidableEq κ] in
/-- Nobody is `asleep` at a closed queue once nothing is owed. -/
theorem Dismisses.asleep_eq_nil (h : m.Dismisses) (howed : m.owed = [])
    (hclosed : m.queue.closed = true) : m.waiters.asleep = [] := by
  rw [List.eq_nil_iff_forall_not_mem]
  intro c hc
  obtain ⟨k, hk⟩ := h hclosed c hc
  rw [howed] at hk
  exact absurd hk List.not_mem_nil

/-- No `Turn` makes a queue hold more than its capacity. -/
theorem Turn.fits (h : m.Turn m') (hfits : m.Fits capacity) : m'.Fits capacity := by
  cases h with
  | visited hvisit => exact hvisit.fits hfits
  | unchanged | counted => exact hfits
  | taken hitems =>
    obtain ⟨hcapacity, hlen⟩ := hfits
    rw [hitems, List.length_cons] at hlen
    exact ⟨hcapacity, Nat.le_of_succ_le hlen⟩
  | closed k => exact hfits
  | delivered hdeliver => rwa [Fits, deliver_queue hdeliver]
  | woke => exact hfits

/-! ## Runs -/

/-- Everyone asleep at a queue sleeps rightly. -/
structure SleepsRightly (capacity : Nat) (m : Monitor κ α) : Prop where
  /-- Producers sleep at a full and open queue. -/
  full : ∀ k v, (k, .push v) ∈ m.waiters.asleep →
    m.queue.closed = false ∧ m.queue.items.length = capacity
  /-- Consumers sleep at an empty and open queue. -/
  empty : ∀ k, (k, .pop) ∈ m.waiters.asleep → m.queue.closed = false ∧ m.queue.items = []
  /-- Producers and consumers never sleep together. -/
  apart : ∀ k v k', (k, .push v) ∈ m.waiters.asleep → (k', .pop) ∉ m.waiters.asleep
  /-- Nobody sleeps after a close. -/
  dismissed : m.queue.closed = true → m.waiters.asleep = []

/-- Whatever any number of callers do at a queue, in whatever interleaving: once no notification is
still to be sent and no woken caller has still to look again, everyone asleep sleeps rightly
(`SleepsRightly`). -/
theorem Run.sleepers {name : String} {q : Queue α}
    {turns : List (Action κ α × Option (Reply α))} (hq : create? name capacity = some q)
    (h : Run q turns m) (howed : m.owed = []) (hwoken : m.waiters.woken = []) :
    m.SleepsRightly capacity := by
  unfold create? at hq
  split at hq
  · exact nomatch hq
  · rename_i hcapacity
    obtain rfl := Option.some.inj hq
    have halert : m.IsAlert := h.invariant (isAlert_of_nobody rfl) fun _ _ hm ht => ht.isAlert hm
    have hdismisses : m.Dismisses := h.invariant nofun fun _ _ hm ht => ht.dismisses hm
    have hfits : m.Fits capacity :=
      h.invariant ⟨rfl, Nat.zero_le _⟩ fun _ _ hm ht => ht.fits hm
    have hdismissed := hdismisses.asleep_eq_nil howed
    have hopen : ∀ c ∈ m.waiters.asleep, m.queue.closed = false := by
      intro c hc
      cases hclosed : m.queue.closed with
      | false => rfl
      | true =>
        rw [hdismissed hclosed] at hc
        exact absurd hc List.not_mem_nil
    have hfull : ∀ k v, (k, .push v) ∈ m.waiters.asleep → m.queue.items.length = capacity := by
      intro k v hc
      have hle := halert.full_of_asleep (hopen _ hc) hwoken howed hc
      rw [hfits.1] at hle
      exact Nat.le_antisymm hfits.2 hle
    have hempty : ∀ k, (k, .pop) ∈ m.waiters.asleep → m.queue.items = [] := by
      intro k hc
      exact halert.empty_of_asleep (hopen _ hc) hwoken howed hc
    constructor
    case full =>
      intro k v hc
      exact ⟨hopen _ hc, hfull k v hc⟩
    case empty =>
      intro k hc
      exact ⟨hopen _ hc, hempty k hc⟩
    case apart =>
      -- A queue that can hold a value is not full and empty at once.
      intro k v k' hpush hpop
      have hlen := hfull k v hpush
      rw [hempty k' hpop] at hlen
      exact hcapacity hlen.symm
    case dismissed => exact hdismissed

/-- Two consumers sleep. The notification for a value wakes the second of them, but the value is
taken before it looks again, so that it sleeps once more. -/
theorem sleepers_of_overtaken :
    ∃ m : Monitor Nat Nat,
      Run { name := "metadata", capacity := 1 }
        [(.enter 0 .pop, none), (.enter 1 .pop, none), (.enter 2 (.push 7), some .pushed),
          (.deliver 2, none), (.tryPop 3, some (.item 7)), (.recheck 1, none), (.count 3, none),
          (.deliver 3, none)]
        m ∧
      m.waiters.asleep = [(0, .pop), (1, .pop)] ∧ m.SleepsRightly 1 := by
  let q : Queue Nat := { name := "metadata", capacity := 1 }
  have hrun : Run q [] ({ queue := q } : Monitor Nat Nat) := .start
  have hrun := hrun.step (.plain (a := .enter 0 .pop) rfl)
  have hrun := hrun.step (.plain (a := .enter 1 .pop) rfl)
  have hrun := hrun.step (.plain (a := .enter 2 (.push 7)) rfl)
  have hwake : Signal.item.wakesOne ((1, .pop) : Nat × Want Nat).2 = true := rfl
  have hasleep : ([(0, .pop), (1, .pop)] : List (Nat × Want Nat)) =
      [(0, .pop)] ++ (1, .pop) :: [] := rfl
  have hrun := hrun.step (.wake (k := 2) nofun rfl hasleep hwake)
  -- The caller that does not wait is faster than the one that was woken.
  have hrun := hrun.step (.plain (a := .tryPop 3) rfl)
  have hrun := hrun.step (.plain (a := .recheck 1) rfl)
  have hrun := hrun.step (.plain (a := .count 3) rfl)
  have hrun := hrun.step (.plain (a := .deliver 3) rfl)
  exact ⟨_, hrun, rfl, hrun.sleepers rfl rfl rfl⟩

end Monitor

end WriteAhead.Queue
