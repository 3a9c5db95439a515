import WriteAhead.Proofs.Queue.Run

/-!
# What callers have been answered at a queue

A history lists what callers did at a queue, each action with the answer that it got. A blocking
call may be answered long after it began: `call?` finds the action with which it did. The values
that the queue accepted, those that it gave out and those that it handed back can be read off a
history, and `Entry` says once what one more turn adds to it.

## Key results

- `Run.split`: every turn of a run is a step from the state that the turns before it led to
- `Run.begun`: a waiting caller still wants what it wanted when its last call began
- `Step.entry`: what a turn can add to a history
-/

namespace WriteAhead.Queue

variable {κ α : Type}

/-- The value for which a call wants room. -/
def Want.value? : Want α → Option α
  | .push v => some v
  | .pop => none

/-- The value that an answer gives out. -/
def Reply.item? : Reply α → Option α
  | .item v => some v
  | .pushed | .refused _ | .full _ | .nothing | .closed => none

/-- The value that an answer hands back. -/
def Reply.handedBack? : Reply α → Option α
  | .refused v | .full v => some v
  | .pushed | .item _ | .nothing | .closed => none

namespace Monitor

/-! ## Calls -/

namespace Action

/-- What a call that begins with this action wants from the queue. -/
def want? : Action κ α → Option (Want α)
  | .enter _ want => some want
  | .tryPush _ v => some (.push v)
  | .tryPop _ => some .pop
  | .close _ | .recheck _ | .count _ | .deliver _ => none

/-- The value that a call brings when it begins. -/
def value? (a : Action κ α) : Option α := a.want?.bind Want.value?

/-- What a caller wants from the blocking call that it begins with this action. -/
def begins? [DecidableEq κ] (k : κ) : Action κ α → Option (Want α)
  | .enter k' want => if k' = k then some want else none
  | .tryPush .. | .tryPop _ | .close _ | .recheck _ | .count _ | .deliver _ => none

end Action

/-- What callers did at a queue, the oldest first, each action with the answer that it got. -/
abbrev History (κ α : Type) := List (Action κ α × Option (Reply α))

/-- Whether a turn sends a caller to sleep for the first time in its call, for a want that is
`p`. -/
def stalls (p : Want α → Bool) (t : Action κ α × Option (Reply α)) : Bool :=
  match t.2 with
  | some _ => false
  | none =>
    match t.1 with
    | .enter _ want => p want
    | .tryPush .. | .tryPop _ | .close _ | .recheck _ | .count _ | .deliver _ => false

/-- Whether the queue has been closed. -/
def IsClosed (turns : History κ α) : Prop := ∃ k, (.close k, some .closed) ∈ turns

/-- The values that calls brought, in the order in which the calls began. -/
def brought (turns : History κ α) : List α := turns.filterMap (·.1.value?)

/-- The values that were given out, in order. -/
def popped (turns : History κ α) : List α := turns.filterMap (·.2.bind Reply.item?)

/-- The values that were handed back, in order. -/
def handedBack (turns : History κ α) : List α := turns.filterMap (·.2.bind Reply.handedBack?)

section

variable [DecidableEq κ]

/-- What a caller wants from the blocking call that it began last. -/
def begun? (k : κ) (turns : History κ α) : Option (Want α) :=
  (turns.filterMap (·.1.begins? k)).getLast?

/-- The action that began the call to which an action belongs; none if it belongs to none. -/
def call? (before : History κ α) : Action κ α → Option (Action κ α)
  | .recheck k => (begun? k before).map (.enter k)
  | .count _ | .deliver _ => none
  | .enter k want => some (.enter k want)
  | .tryPush k v => some (.tryPush k v)
  | .tryPop k => some (.tryPop k)
  | .close k => some (.close k)

/-- The value that was accepted on a turn. -/
def accepted? (before : History κ α) : Action κ α × Option (Reply α) → Option α
  | (a, some .pushed) => (call? before a).bind Action.value?
  | _ => none

/-- The values that were accepted after `before`. -/
def acceptedAfter (before : History κ α) : History κ α → List α
  | [] => []
  | t :: turns => (accepted? before t).toList ++ acceptedAfter (before ++ [t]) turns

/-- The values that were accepted, in order. -/
def accepted (turns : History κ α) : List α := acceptedAfter [] turns

end

/-! ## Histories that grow -/

/-- One more turn closes the queue if it is a `close` that was answered. -/
theorem isClosed_concat (turns : History κ α) (a : Action κ α) (r : Option (Reply α)) :
    IsClosed (turns ++ [(a, r)]) ↔ IsClosed turns ∨ ∃ k, a = .close k ∧ r = some .closed := by
  simp only [IsClosed, List.mem_append, List.mem_singleton, Prod.mk.injEq, exists_or,
    @eq_comm _ (Action.close _), @eq_comm _ (some Reply.closed)]

theorem brought_concat (turns : History κ α) (a : Action κ α) (r : Option (Reply α)) :
    brought (turns ++ [(a, r)]) = brought turns ++ a.value?.toList := by
  rw [brought, List.filterMap_append]
  cases h : a.value? <;> simp [brought, h]

theorem popped_concat (turns : History κ α) (a : Action κ α) (r : Option (Reply α)) :
    popped (turns ++ [(a, r)]) = popped turns ++ (r.bind Reply.item?).toList := by
  rw [popped, List.filterMap_append]
  cases h : r.bind Reply.item? <;> simp [popped, h]

theorem handedBack_concat (turns : History κ α) (a : Action κ α) (r : Option (Reply α)) :
    handedBack (turns ++ [(a, r)]) = handedBack turns ++ (r.bind Reply.handedBack?).toList := by
  rw [handedBack, List.filterMap_append]
  cases h : r.bind Reply.handedBack? <;> simp [handedBack, h]

variable [DecidableEq κ]

/-- One more turn comes after all values in `acceptedAfter`. -/
theorem acceptedAfter_concat (before turns : History κ α) (t : Action κ α × Option (Reply α)) :
    acceptedAfter before (turns ++ [t]) =
      acceptedAfter before turns ++ (accepted? (before ++ turns) t).toList := by
  induction turns generalizing before with
  | nil => simp [acceptedAfter]
  | cons u turns ih => simp [acceptedAfter, ih, List.append_assoc]

/-- One more turn accepts what `accepted?` finds for it, given the turns before. -/
theorem accepted_concat (turns : History κ α) (t : Action κ α × Option (Reply α)) :
    accepted (turns ++ [t]) = accepted turns ++ (accepted? turns t).toList :=
  acceptedAfter_concat [] turns t

theorem begun?_concat (k : κ) (turns : History κ α) (a : Action κ α) (r : Option (Reply α)) :
    begun? k (turns ++ [(a, r)]) = (a.begins? k).or (begun? k turns) := by
  rw [begun?, List.filterMap_append]
  cases h : a.begins? k <;> simp [begun?, h]

variable {q : Queue α} {turns : History κ α} {m m' : Monitor κ α} {a : Action κ α}
  {r : Option (Reply α)}

/-- Every turn of a run is a `Step` from the state that the turns before it led to. -/
theorem Run.split {before after : History κ α} (h : Run q (before ++ (a, r) :: after) m) :
    ∃ m₁ m₂, Run q before m₁ ∧ m₁.Step a m₂ r := by
  generalize hturns : before ++ (a, r) :: after = turns at h
  -- The run grows at its end, so the turn is looked for from there.
  induction h generalizing after with
  | start => simp at hturns
  | @step turns m₁ m₂ a' r' hrun hstep ih =>
    -- Either the turn is the last one, or the run was longer than it before the last one.
    rcases List.eq_nil_or_concat after with rfl | ⟨after, t, rfl⟩
    · obtain ⟨rfl, hlast⟩ := List.append_inj' hturns rfl
      obtain ⟨rfl, rfl⟩ := Prod.mk.inj (List.singleton_inj.mp hlast)
      exact ⟨m₁, m₂, hrun, hstep⟩
    · apply ih
      rw [List.concat_eq_append, ← List.cons_append, ← List.append_assoc] at hturns
      exact (List.append_inj' hturns rfl).1

/-! ## Waiting callers -/

/-- A caller that is free (`isFree`) does not wait. -/
theorem ne_of_isFree {k : κ} (hfree : m.isFree k = true) : ∀ c ∈ m.waiters.all, c.1 ≠ k := by
  simp only [isFree, Bool.not_eq_true', Bool.or_eq_false_iff, List.any_eq_false,
    decide_eq_true_eq] at hfree
  obtain ⟨⟨⟨hasleep, hwoken⟩, -⟩, -⟩ := hfree
  intro c hc
  rcases List.mem_append.mp hc with hc | hc
  · exact hasleep c hc
  · exact hwoken c hc

/-- A caller that is free has counted what it took: `isFree` asks for that too. -/
theorem not_mem_uncounted_of_isFree {k : κ} (hfree : m.isFree k = true) : k ∉ m.uncounted := by
  simp only [isFree, Bool.not_eq_true', Bool.or_eq_false_iff, List.any_eq_false,
    decide_eq_true_eq] at hfree
  exact fun hmem => hfree.2 k hmem rfl

/-- A waiting caller wants what it wanted when it began its last call. -/
def Begun (turns : History κ α) (m : Monitor κ α) : Prop :=
  ∀ c ∈ m.waiters.all, begun? c.1 turns = some c.2

/-! ## What a turn adds -/

/-- An action looks for what its call wants, on the first look of the call or on a later one. -/
structure Seeks (before : History κ α) (m : Monitor κ α) (a : Action κ α) (k : κ) (want : Want α)
    (first : Bool) (w : Waiters κ (Want α)) : Prop where
  call : ∃ call, call? before a = some call ∧ call.want? = some want
  /-- A call brings its value on the first look. -/
  value : a.value? = if first then want.value? else none
  look : m.waiters.Look k want first w
  /-- Who begins a blocking call does not wait. -/
  free : ∀ k' want', a = .enter k' want' → ∀ c ∈ m.waiters.all, c.1 ≠ k'

/-- A caller falls asleep in a blocking call, for the first time or once more. -/
structure Stalls (before : History κ α) (a : Action κ α) (k : κ) (want : Want α) (first : Bool) :
    Prop where
  call : call? before a = some (.enter k want)
  first_iff : first = true ↔ a = .enter k want

/-- What a turn comes to after the turns `before`. -/
inductive Entry (before : History κ α) (m : Monitor κ α) :
    Action κ α → Option (Reply α) → Monitor κ α → Prop where
  | pushed {a : Action κ α} {k : κ} {v : α} {first : Bool} {w : Waiters κ (Want α)}
      {owed : List (κ × Signal)} (hseeks : Seeks before m a k (.push v) first w)
      (hopen : m.queue.closed = false) (hroom : m.queue.items.length < m.queue.capacity) :
      Entry before m a (some .pushed) ⟨{ m.queue with
        items := m.queue.items ++ [v], pushed := m.queue.pushed + 1 }, w, m.uncounted, owed⟩
  | refused {a : Action κ α} {k : κ} {v : α} {first : Bool} {w : Waiters κ (Want α)}
      {owed : List (κ × Signal)} (hseeks : Seeks before m a k (.push v) first w)
      (hclosed : m.queue.closed = true) :
      Entry before m a (some (.refused v)) ⟨m.queue, w, m.uncounted, owed⟩
  | stalledPush {a : Action κ α} {k : κ} {v : α} {first : Bool} {w : Waiters κ (Want α)}
      {owed : List (κ × Signal)} (hseeks : Seeks before m a k (.push v) first w)
      (hstalls : Stalls before a k (.push v) first) (hopen : m.queue.closed = false)
      (hfull : m.queue.capacity ≤ m.queue.items.length) :
      Entry before m a none ⟨{ m.queue with
        pushBlocked := m.queue.pushBlocked + first.toNat }, w.sleep k (.push v), m.uncounted, owed⟩
  | item {a : Action κ α} {k : κ} {v : α} {rest : List α} {first : Bool}
      {w : Waiters κ (Want α)} {owed : List (κ × Signal)}
      (hseeks : Seeks before m a k .pop first w) (hcall : call? before a = some (.enter k .pop))
      (hitems : m.queue.items = v :: rest) :
      Entry before m a (some (.item v)) ⟨{ m.queue with
        items := rest, popped := m.queue.popped + 1 }, w, m.uncounted, owed⟩
  | ended {a : Action κ α} {k : κ} {first : Bool} {w : Waiters κ (Want α)}
      {owed : List (κ × Signal)} (hseeks : Seeks before m a k .pop first w)
      (hclosed : m.queue.closed = true) (hitems : m.queue.items = []) :
      Entry before m a (some .nothing) ⟨m.queue, w, m.uncounted, owed⟩
  | stalledPop {a : Action κ α} {k : κ} {first : Bool} {w : Waiters κ (Want α)}
      {owed : List (κ × Signal)} (hseeks : Seeks before m a k .pop first w)
      (hstalls : Stalls before a k .pop first) (hopen : m.queue.closed = false)
      (hitems : m.queue.items = []) :
      Entry before m a none ⟨{ m.queue with
        popWaited := m.queue.popWaited + first.toNat }, w.sleep k .pop, m.uncounted, owed⟩
  /-- A caller that does not wait finds no room. -/
  | full {k : κ} {v : α} (hopen : m.queue.closed = false)
      (hfull : m.queue.capacity ≤ m.queue.items.length) :
      Entry before m (.tryPush k v) (some (.full v)) m
  /-- A caller that does not wait takes a value, which it has still to count. -/
  | taken {k : κ} {v : α} {rest : List α} (hcounted : k ∉ m.uncounted)
      (hitems : m.queue.items = v :: rest) :
      Entry before m (.tryPop k) (some (.item v)) ({ m with
        queue := { m.queue with items := rest }
        uncounted := k :: m.uncounted }.owe k .room)
  /-- A caller that took a value without waiting counts it. -/
  | counted {k : κ} (hmem : k ∈ m.uncounted) :
      Entry before m (.count k) none
        { m with queue := m.queue.countPop, uncounted := m.uncounted.erase k }
  /-- A caller that does not wait finds no value. -/
  | empty {k : κ} (hitems : m.queue.items = []) : Entry before m (.tryPop k) (some .nothing) m
  | closed (k : κ) : Entry before m (.close k) (some .closed) (m.close k)
  /-- A caller sends a notification. -/
  | told {k : κ} {m' : Monitor κ α} (hqueue : m'.queue = m.queue)
      (huncounted : m'.uncounted = m.uncounted) (hall : m'.waiters.all.Perm m.waiters.all) :
      Entry before m (.deliver k) none m'

/-- A look for room (`Seeks`) is one of the outcomes of a push: accepted, refused or asleep. -/
private theorem Seeks.push {before : History κ α} {k : κ} {v : α} {first : Bool}
    {w : Waiters κ (Want α)} (h : Seeks before m a k (.push v) first w)
    (hattempt : { m with waiters := w }.attempt k (.push v) first = (m', r))
    (hstalls : r = none → Stalls before a k (.push v) first) : Entry before m a r m' := by
  simp only [attempt] at hattempt
  -- The three outcomes of `offer`, each with what it leaves in the queue.
  split at hattempt
  · rename_i q hbring
    obtain ⟨hopen, hroom, rfl⟩ := bring_accepted hbring
    obtain ⟨rfl, rfl⟩ := Prod.mk.inj hattempt
    exact .pushed h hopen hroom
  · rename_i hbring
    obtain ⟨rfl, rfl⟩ := Prod.mk.inj hattempt
    exact .refused h (bring_refused hbring)
  · rename_i hbring
    obtain ⟨hopen, hfull⟩ := bring_full hbring
    obtain ⟨rfl, rfl⟩ := Prod.mk.inj hattempt
    cases first <;> exact .stalledPush h (hstalls rfl) hopen hfull

/-- A look for a value (`Seeks`) is one of the outcomes of a pop: a value, the end or asleep. -/
private theorem Seeks.pop {before : History κ α} {k : κ} {first : Bool} {w : Waiters κ (Want α)}
    (h : Seeks before m a k .pop first w) (hcall : call? before a = some (.enter k .pop))
    (hattempt : { m with waiters := w }.attempt k .pop first = (m', r))
    (hstalls : r = none → Stalls before a k .pop first) : Entry before m a r m' := by
  simp only [attempt] at hattempt
  -- The three outcomes of `take`, each with what it leaves in the queue.
  split at hattempt
  · rename_i v q htake
    obtain ⟨rest, hitems, rfl⟩ := take_item htake
    obtain ⟨rfl, rfl⟩ := Prod.mk.inj hattempt
    exact .item h hcall hitems
  · rename_i htake
    obtain ⟨hclosed, hitems⟩ := take_ended htake
    obtain ⟨rfl, rfl⟩ := Prod.mk.inj hattempt
    exact .ended h hclosed hitems
  · rename_i htake
    obtain ⟨hopen, hitems⟩ := take_empty htake
    obtain ⟨rfl, rfl⟩ := Prod.mk.inj hattempt
    cases first <;> exact .stalledPop h (hstalls rfl) hopen hitems

/-- A look of a blocking call is an `Entry`, whichever kind of call it is. -/
private theorem Seeks.attempt {before : History κ α} {k : κ} {want : Want α} {first : Bool}
    {w : Waiters κ (Want α)} (h : Seeks before m a k want first w)
    (hcall : call? before a = some (.enter k want))
    (hattempt : { m with waiters := w }.attempt k want first = (m', r))
    (hfirst : first = true ↔ a = .enter k want) : Entry before m a r m' := by
  cases want with
  | push v => exact h.push hattempt fun _ => ⟨hcall, hfirst⟩
  | pop => exact h.pop hcall hattempt fun _ => ⟨hcall, hfirst⟩

/-- What a `Step` can add to a history in which every waiting caller has begun its call. -/
theorem Step.entry {before : History κ α} (hstep : m.Step a m' r) (hbegun : Begun before m) :
    Entry before m a r m' := by
  cases hstep with
  | @wake k sig c passed left hcounted howes hasleep hone =>
    refine .told rfl rfl ?_
    simp only [Waiters.all, Monitor.wake, hasleep, List.append_assoc, List.cons_append]
    refine List.Perm.append_left _ ?_
    rw [← List.append_assoc]
    exact List.perm_append_singleton _ _
  | plain hstep =>
    cases a with
    | enter k want =>
      obtain ⟨hfree, henter⟩ := Option.ite_none_right_eq_some.mp hstep
      have hseeks : Seeks before m (.enter k want) k want true m.waiters := by
        refine ⟨⟨_, rfl, rfl⟩, rfl, .first, ?_⟩
        rintro k' want' ⟨⟩
        exact ne_of_isFree hfree
      exact hseeks.attempt rfl (Option.some.inj henter) (by simp)
    | tryPush k v =>
      obtain ⟨-, hpush⟩ := Option.ite_none_right_eq_some.mp hstep
      obtain ⟨rfl, rfl⟩ := Prod.mk.inj (Option.some.inj hpush)
      have hseeks : Seeks before m (.tryPush k v) k (.push v) true m.waiters :=
        ⟨⟨_, rfl, rfl⟩, rfl, .first, by rintro _ _ ⟨⟩⟩
      -- The two pushes test in another order, but come to the same.
      unfold tryPush
      rw [← bring_eq_offer]
      cases hbring : m.queue.bring v with
      | accepted q =>
        obtain ⟨hopen, hroom, rfl⟩ := bring_accepted hbring
        exact .pushed hseeks hopen hroom
      | full =>
        obtain ⟨hopen, hfull⟩ := bring_full hbring
        exact .full hopen hfull
      | refused => exact .refused hseeks (bring_refused hbring)
    | tryPop k =>
      obtain ⟨hfree, hpop⟩ := Option.ite_none_right_eq_some.mp hstep
      obtain ⟨rfl, rfl⟩ := Prod.mk.inj (Option.some.inj hpop)
      rcases m.tryPop_cases k with ⟨v, rest, hitems, heq⟩ | ⟨hitems, heq⟩
      · rw [heq]
        exact .taken (not_mem_uncounted_of_isFree hfree) hitems
      · rw [heq]
        exact .empty hitems
    | close k =>
      obtain ⟨-, hclose⟩ := Option.ite_none_right_eq_some.mp hstep
      obtain ⟨rfl, rfl⟩ := Prod.mk.inj (Option.some.inj hclose)
      exact .closed k
    | recheck k =>
      obtain ⟨want, hwant, hattempt⟩ := Option.map_eq_some_iff.mp hstep
      have hmem : (k, want) ∈ m.waiters.all :=
        (Waiters.all_resume hwant).mem_iff.mpr List.mem_cons_self
      have hcall : call? before (.recheck k) = some (.enter k want) := by
        rw [call?, hbegun _ hmem]
        rfl
      -- A woken caller is in the call that it began last.
      have hseeks : Seeks before m (.recheck k) k want false (m.waiters.resume k) :=
        ⟨⟨_, hcall, rfl⟩, rfl, .again hwant, by rintro _ _ ⟨⟩⟩
      exact hseeks.attempt hcall hattempt (by simp)
    | count k =>
      obtain ⟨m₁, hcount, heq⟩ := Option.map_eq_some_iff.mp hstep
      obtain ⟨rfl, rfl⟩ := Prod.mk.inj heq
      obtain ⟨hmem, rfl⟩ := count_eq_some hcount
      exact .counted hmem
    | deliver k =>
      obtain ⟨-, hstep⟩ := Option.ite_none_left_eq_some.mp hstep
      obtain ⟨m₁, hdeliver, heq⟩ := Option.map_eq_some_iff.mp hstep
      obtain ⟨rfl, rfl⟩ := Prod.mk.inj heq
      exact .told (deliver_queue hdeliver) (deliver_uncounted hdeliver) (deliver_all hdeliver)

/-! ## Waiting callers -/

/-- Who waits while a caller looks has begun the call that it is in (`begun?`). -/
private theorem Seeks.begun {before : History κ α} {k : κ} {want : Want α} {first : Bool}
    {w : Waiters κ (Want α)} (h : Seeks before m a k want first w) (hbegun : Begun before m) :
    ∀ c ∈ w.all, begun? c.1 (before ++ [(a, r)]) = some c.2 := by
  intro c hc
  have hold : c ∈ m.waiters.all := h.look.all_subset hc
  -- Another caller begins its call on this turn, if anybody does.
  have hother : a.begins? c.1 = none := by
    cases a with
    | enter k' want' =>
      have hne : k' ≠ c.1 := (h.free k' want' rfl c hold).symm
      simp [Action.begins?, hne]
    | tryPush | tryPop | close | recheck | count | deliver => rfl
  rw [begun?_concat, hother, Option.none_or]
  exact hbegun c hold

/-- A caller that falls asleep (`Stalls`) has begun the call that it is in. -/
private theorem Stalls.begun {before : History κ α} {k : κ} {want : Want α} {first : Bool}
    (h : Stalls before a k want first) : begun? k (before ++ [(a, r)]) = some want := by
  rw [begun?_concat]
  cases a with
  | enter k' want' =>
    obtain ⟨rfl, rfl⟩ := Action.enter.inj (Option.some.inj h.call)
    simp [Action.begins?]
  -- A caller that looks again is in the call that it began before.
  | recheck k' =>
    obtain ⟨want', hbegun, heq⟩ := Option.map_eq_some_iff.mp h.call
    obtain ⟨rfl, rfl⟩ := Action.enter.inj heq
    exact hbegun
  | tryPush | tryPop | close | count | deliver => exact nomatch h.call

/-- After a caller falls asleep (`Stalls`) it is one of those who have begun their calls. -/
private theorem Stalls.asleep_begun {before : History κ α} {k : κ} {want : Want α} {first : Bool}
    {w : Waiters κ (Want α)} (h : Stalls before a k want first)
    (hseeks : Seeks before m a k want first w) (hbegun : Begun before m) :
    ∀ c ∈ (w.sleep k want).all, begun? c.1 (before ++ [(a, r)]) = some c.2 := by
  intro c hc
  rcases List.mem_cons.mp ((w.all_sleep k want).mem_iff.mp hc) with rfl | hc
  · exact h.begun
  · exact hseeks.begun hbegun c hc

/-- A turn leaves every waiting caller in the call that it began last (`Begun`). -/
theorem Entry.begun {before : History κ α} (h : Entry before m a r m')
    (hbegun : Begun before m) : Begun (before ++ [(a, r)]) m' := by
  cases h with
  | pushed hseeks | refused hseeks | item hseeks | ended hseeks => exact hseeks.begun hbegun
  | stalledPush hseeks hstalls | stalledPop hseeks hstalls =>
    exact hstalls.asleep_begun hseeks hbegun
  -- No call of a waiting caller begins on such a turn.
  | full | taken | counted | empty | closed =>
    intro c hc
    rw [begun?_concat, Action.begins?, Option.none_or]
    exact hbegun c hc
  | told hqueue huncounted hall =>
    intro c hc
    rw [begun?_concat, Action.begins?, Option.none_or]
    exact hbegun c (hall.mem_iff.mp hc)

/-- A waiting caller of a run still wants what it wanted when its last call began (`Begun`). -/
theorem Run.begun (h : Run q turns m) : Begun turns m := by
  induction h with
  | start => exact nofun
  | step hrun hstep ih => exact (hstep.entry ih).begun ih

end Monitor

end WriteAhead.Queue
