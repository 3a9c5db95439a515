import WriteAhead.Proofs.Device.Effort
import WriteAhead.Proofs.Journal.Change
import WriteAhead.Simulation

/-!
# The effort that is left in a journal

A write takes a bounded number of steps from its request to its checkpoint, and each of them that
wakes callers makes a bounded number of them look once more. `effort` weighs what is left: the
writes by how far they have come, the notifications that are owed, the callers that are woken, and
the shutdown. It falls with each step of an actor. Tokens that are handed over in the step are paid
for with it, since the device has its own effort for them.

## Key results

- `Attended.woken_lt`: how few callers are woken at any time
- `Change.effort_lt`: a step of an actor lowers the effort
- `effort_complete`: a completion raises it by no more than the callers that it wakes
-/

namespace WriteAhead

namespace PerStage

variable {α : Type}

/-- The sum of what each stage counts for. -/
def total (f : Stage → α → Nat) (x : PerStage α) : Nat :=
  (Stage.all.map fun s => f s (x.get s)).sum

/-- Replacing the value of one stage trades its summand in `total` for that of the new one. -/
theorem total_set (f : Stage → α → Nat) (x : PerStage α) (s : Stage) (a : α) :
    (x.set s a).total f + f s (x.get s) = x.total f + f s a := by
  cases s <;> simp [total, Stage.all] <;> omega

end PerStage

open Device (wakeEffort issueEffort)

/-! ## Monitors -/

/-- Whoever looks again is no longer among the `woken`. -/
theorem Waiters.Look.length_woken {κ ω : Type} [DecidableEq κ] {w w' : Waiters κ ω} {k : κ}
    {want : ω} {first : Bool} (h : w.Look k want first w') :
    w'.woken.length + (!first).toNat = w.woken.length := by
  cases h with
  | first => rfl
  | again hwant => exact (Waiters.woken_perm_resume hwant).length_eq.symm

namespace Queue.Monitor

variable {κ α : Type} {m m' : Monitor κ α} {k : κ}

/-- The effort left at a queue whose values take so much each. -/
def effort (item : Nat) (m : Monitor κ α) : Nat :=
  item * m.queue.items.length + wakeEffort * m.owed.length + m.waiters.woken.length

/-- A notification that is sent is owed no more, and wakes some callers: `wakeEffort` pays for
them. -/
theorem effort_deliver [DecidableEq κ] (h : m.deliver k = some m') (item : Nat) :
    m'.effort item + wakeEffort + m.waiters.woken.length =
      m.effort item + m'.waiters.woken.length := by
  obtain ⟨sig, howed⟩ := deliver_owed_perm h
  have hlength := howed.length_eq
  rw [List.length_cons] at hlength
  simp only [effort, deliver_queue h, hlength, Nat.mul_add]
  omega

/-- Closing a queue takes two notifications of `wakeEffort` each. -/
theorem effort_close (m : Monitor κ α) (k : κ) (item : Nat) :
    (m.close k).effort item = m.effort item + 2 * wakeEffort := by
  simp only [effort, close, owe, Queue.close, List.length_append, List.length_singleton,
    Nat.mul_add]
  omega

namespace Visit

variable [DecidableEq κ] {first : Bool} {r : Option (Reply α)} {want : Want α}

/-- Whoever looks at a queue again is no longer `woken` there. -/
theorem length_woken (h : m.Visit k want first m' r) :
    m'.waiters.woken.length + (!first).toNat = m.waiters.woken.length := by
  obtain ⟨w, hlook, hwaiters⟩ := h.waiters
  have hwoken : m'.waiters.woken = w.woken := by rw [hwaiters]; split <;> rfl
  rw [hwoken, hlook.length_woken]

/-- A push that is accepted adds a value and a notification to the `effort` of the queue. -/
theorem effort_push {v : α} (h : m.Visit k (.push v) first m' r) (item : Nat) :
    r = some .pushed ∧ m'.effort item + (!first).toNat = m.effort item + item + wakeEffort ∨
      r ≠ some .pushed ∧ m'.effort item + (!first).toNat = m.effort item := by
  have hwoken := h.length_woken
  obtain ⟨m₀, ⟨hqueue, howed, -, -⟩, hpushed⟩ := h.push
  unfold effort
  rw [← hqueue, ← howed]
  -- An item brings its own effort and one notification to send.
  cases hpushed with
  | accepted hbring =>
    obtain ⟨-, -, rfl⟩ := bring_accepted hbring
    refine .inl ⟨rfl, ?_⟩
    simp only [owe, List.length_append, List.length_singleton, Nat.mul_add] at hwoken ⊢
    omega
  | refused =>
    refine .inr ⟨by simp, ?_⟩
    omega
  | full =>
    refine .inr ⟨by simp, ?_⟩
    simp only at hwoken ⊢
    omega

/-- A pop that yields a value takes it out of the `effort` of the queue, and adds a notification. -/
theorem effort_pop (h : m.Visit k .pop first m' r) (item : Nat) :
    (∃ v, r = some (.item v) ∧
        m'.effort item + (!first).toNat + item = m.effort item + wakeEffort) ∨
      (∀ v, r ≠ some (.item v)) ∧ m'.effort item + (!first).toNat = m.effort item := by
  have hwoken := h.length_woken
  obtain ⟨m₀, ⟨hqueue, howed, -, -⟩, hpopped⟩ := h.pop
  unfold effort
  rw [← hqueue, ← howed]
  cases hpopped with
  | item htake =>
    obtain ⟨rest, hitems, rfl⟩ := take_item htake
    refine .inl ⟨_, rfl, ?_⟩
    simp only [owe, hitems, List.length_append, List.length_cons, List.length_nil, Nat.mul_add]
      at hwoken ⊢
    omega
  | ended =>
    refine .inr ⟨by simp, ?_⟩
    omega
  | empty =>
    refine .inr ⟨by simp, ?_⟩
    simp only at hwoken ⊢
    omega

end Visit

end Queue.Monitor

/-- Whoever looks at the table again is no longer `woken` there. -/
theorem Table.Monitor.Visit.length_woken {κ : Type} [DecidableEq κ] {m m' : Table.Monitor κ}
    {k : κ} {want : Table.Want} {first : Bool} {r : Option Table.Reply}
    (h : m.Visit k want first m' r) :
    m'.waiters.woken.length + (!first).toNat = m.waiters.woken.length := by
  obtain ⟨w, hlook, hwaiters⟩ := h.waiters
  have hwoken : m'.waiters.woken = w.woken := by rw [hwaiters]; split <;> rfl
  rw [hwoken, hlook.length_woken]

/-! ## Writes and actors -/

namespace Stage

/-- The effort of an operation: its token is put on record, handed over and taken by the device. -/
def operationEffort : Nat := issueEffort + 2

/-- The effort of a write that has passed the join of a stage: it goes through the queue and the
operations of each later stage, with two looks at the join and two at the queue behind it, and in
the end the client is told and the checkpoint is marked. -/
def onwardEffort (s : Stage) : Nat :=
  ((all.filter (s.index < ·.index)).map fun t =>
    operationEffort * t.operations.length + 2 * wakeEffort + 6).sum + wakeEffort + 2

/-- The effort of a write in the queue of a stage. -/
def itemEffort (s : Stage) : Nat :=
  operationEffort * s.operations.length + wakeEffort + 3 + s.onwardEffort

/-- What a stage does behind its join is to pass the write on: the `itemEffort` of the next queue, a
notification and three steps. -/
theorem onwardEffort_of_next {s t : Stage} (h : s.next = some t) :
    s.onwardEffort = t.itemEffort + wakeEffort + 3 := by
  cases s <;> cases h <;> decide

theorem le_onwardEffort (s : Stage) : wakeEffort + 2 ≤ s.onwardEffort := Nat.le_add_left ..

end Stage

/-- The effort of a worker and the write that it has. -/
def Phase.effort (s : Stage) : Phase → Nat
  | .popping => 1
  | .issuing _ left => s.onwardEffort + 2 + Stage.operationEffort * left.length
  | .handing _ left => s.onwardEffort + 2 + Stage.operationEffort * left.length + issueEffort + 1
  | .awaitingJoin _ => s.onwardEffort + 1
  | .pushing _ | .notifying _ => s.onwardEffort
  | .awaitingRoom _ => s.onwardEffort - 1
  | .marking _ => wakeEffort + 1
  | .awaitingItem | .stopped | .crashed _ => 0

/-- The effort of a request, which looks twice for its slot and twice for room. -/
def requestEffort : Nat := Stage.metadata.itemEffort + wakeEffort + 4

/-- The effort of the request that a submitter is in. -/
def Submission.effort : Submission → Nat
  | .between => 0
  | .awaitingSlot _ => Stage.metadata.itemEffort + wakeEffort + 3
  | .admitted _ => Stage.metadata.itemEffort + wakeEffort + 2
  | .awaitingRoom _ => Stage.metadata.itemEffort + wakeEffort + 1

/-- The effort of a caller. -/
def Caller.effort : Caller → Nat
  | .submitter point left _ => point.effort + requestEffort * left.length
  | .drainer .entering => 1
  | .drainer _ => 0

/-- The effort of a shutdown: each queue is closed with two notifications, the table is shut down,
and each worker is waited for. -/
def Closing.effort : Closing → Nat
  | .open | .done => 0
  | .closing s => (2 * wakeEffort + 1) * (Stage.all.length - s.index) + wakeEffort + 4
  | .aborting => wakeEffort + 4
  | .joining s => Stage.all.length - s.index

namespace Journal

variable {j : Journal} {a : Actor} {action : Action} {s t : Stage} {step : Step}

/-- The effort left in a journal. -/
def effort (j : Journal) : Nat :=
  j.workers.total (fun s w => w.phase.effort s) +
    j.queues.total (fun s m => m.effort s.itemEffort) +
    (j.callers.map Caller.effort).sum + j.closing.effort + j.table.waiters.woken.length

/-- How many callers are woken and have still to look. -/
def woken (j : Journal) : Nat :=
  j.queues.total (fun _ m => m.waiters.woken.length) + j.table.waiters.woken.length

/-- At the start each worker has a look into its queue ahead, so the `effort` is one for each
stage. -/
theorem effort_create (c : Config) : (create c).effort = Stage.all.length := rfl

/-! ## Replacing parts of a journal -/

/-- Another worker in a stage trades the `effort` of the one phase for that of the other. -/
theorem effort_setWorker (j : Journal) (s : Stage) (w : Worker) :
    effort { j with workers := j.workers.set s w } + (j.workers.get s).phase.effort s =
      j.effort + w.phase.effort s := by
  have htotal := j.workers.total_set (fun s w => w.phase.effort s) s w
  simp only [effort]
  omega

/-- A worker that goes into another phase trades the `effort` of the one for that of the other. -/
theorem effort_setPhase (j : Journal) (s : Stage) (p : Phase) :
    (j.setPhase s p).effort + (j.workers.get s).phase.effort s = j.effort + p.effort s :=
  j.effort_setWorker s _

/-- Another queue in a stage trades the `effort` of the one for that of the other. -/
theorem effort_setQueue (j : Journal) (s : Stage) (m : Queue.Monitor Actor WriteId) :
    (j.setQueue s m).effort + (j.queues.get s).effort s.itemEffort =
      j.effort + m.effort s.itemEffort := by
  have htotal := j.queues.total_set (fun s m => m.effort s.itemEffort) s m
  simp only [effort, setQueue]
  omega

/-- Another table trades the `woken` callers of the one for those of the other. -/
theorem effort_setTable (j : Journal) (m : Table.Monitor Actor) :
    effort { j with table := m } + j.table.waiters.woken.length =
      j.effort + m.waiters.woken.length := by
  simp only [effort]
  omega

/-- A shutdown that gets further trades the `effort` of its places. -/
theorem effort_setClosing (j : Journal) (closing : Closing) :
    effort { j with closing } + j.closing.effort = j.effort + closing.effort := by
  simp only [effort]
  omega

/-- A caller that gets further trades the `effort` of its places. -/
theorem effort_setCaller {k : Nat} {c₀ : Caller} (h : j.callers[k]? = some c₀) (c : Caller) :
    (j.setCaller k c).effort + c₀.effort = j.effort + c.effort := by
  have hsum := List.sum_map_set h Caller.effort c
  simp only [effort, setCaller]
  omega

/-- A new caller adds its own `effort`. -/
theorem effort_call (j : Journal) (c : Caller) : (j.call c).effort = j.effort + c.effort := by
  simp only [effort, call, List.map_append, List.map_singleton, List.sum_append, List.sum_singleton]
  omega

/-- Another queue in a stage trades the `woken` callers of the one for those of the other. -/
theorem woken_setQueue (j : Journal) (s : Stage) (m : Queue.Monitor Actor WriteId) :
    (j.setQueue s m).woken + (j.queues.get s).waiters.woken.length =
      j.woken + m.waiters.woken.length := by
  have htotal := j.queues.total_set (fun _ m => m.waiters.woken.length) s m
  simp only [woken, setQueue]
  omega

/-! ## Steps -/

/-- The tokens that are handed over. -/
def handedCount (es : List Event) : Nat := (es.filterMap Simulation.handed?).length

theorem handedCount_of_ne {es : List Event} (h : ∀ e ∈ es, Simulation.handed? e = none) :
    handedCount es = 0 := by
  rw [handedCount, List.filterMap_eq_nil_iff.mpr h, List.length_nil]

/-! ## Looks at a monitor -/

section

variable {first : Bool} {id : WriteId}

/-- A `first` look costs one step more than a later one, which costs the wake that came before. -/
private theorem look (first : Bool) : first.toNat + (!first).toNat = 1 := by cases first <;> rfl

/-- A worker that looks into its queue has less `effort` ahead, whether it gets a write, sleeps or
ends. -/
private theorem effort_pop {m : Queue.Monitor Actor WriteId} {r : Option (Queue.Reply WriteId)}
    (hphase : (j.workers.get s).phase = if first then .popping else .awaitingItem)
    (hvisit : (j.queues.get s).Visit (.worker s) .pop first m r) :
    ((j.setQueue s m).afterPop s r).1.effort < j.effort := by
  have hlook := look first
  have hbefore : (j.workers.get s).phase.effort s = first.toNat := by
    rw [hphase]; cases first <;> rfl
  have hqueue := j.effort_setQueue s m
  have hmove (p : Phase) : ((j.setQueue s m).setPhase s p).effort + first.toNat =
      (j.setQueue s m).effort + p.effort s := hbefore ▸ (j.setQueue s m).effort_setPhase s p
  -- With an item the effort of the queue becomes that of the phase. Otherwise the look itself is
  -- spent.
  rcases hvisit.effort_pop s.itemEffort with ⟨v, rfl, hitem⟩ | ⟨hr, hnone⟩
  · have hafter := hmove (.issuing v s.operations)
    show ((j.setQueue s m).setPhase s (.issuing v s.operations)).effort < _
    simp only [Phase.effort, Stage.itemEffort] at hafter hitem hqueue
    omega
  · have hafter (p : Phase) (hp : p.effort s = 0) :
        ((j.setQueue s m).setPhase s p).effort < j.effort := by
      have := hmove p
      omega
    cases r with
    | none => exact hafter .awaitingItem rfl
    | some r =>
      cases r with
      | item v => exact absurd rfl (hr v)
      | _ => exact hafter .stopped rfl

/-- A worker that looks for its join has less `effort` ahead, whether it goes on, sleeps or ends. -/
private theorem effort_join {m : Table.Monitor Actor} {r : Option Table.Reply}
    (hphase : (j.workers.get s).phase = if first then .issuing id [] else .awaitingJoin id)
    (hvisit : j.table.Visit (.worker s) (.join id s) first m r) :
    ({ j with table := m }.afterJoin s id r).1.effort < j.effort := by
  have hlook := look first
  have hwoken := hvisit.length_woken
  have hbefore : (j.workers.get s).phase.effort s = s.onwardEffort + 1 + first.toNat := by
    rw [hphase]; cases first <;> rfl
  have htable := j.effort_setTable m
  have hafter (w : Worker) (hw : w.phase.effort s ≤ s.onwardEffort + 1) :
      effort { j with table := m, workers := j.workers.set s w } < j.effort := by
    have hmove : effort { j with table := m, workers := j.workers.set s w } +
        (s.onwardEffort + 1 + first.toNat) = effort { j with table := m } + w.phase.effort s :=
      hbefore ▸ effort_setWorker { j with table := m } s w
    omega
  -- `advance` counts the write as processed besides, which costs nothing.
  have hadvance : (advance { j with table := m } s id).1.effort < j.effort := by
    refine hafter _ ?_
    dsimp only
    split <;> exact Nat.le_succ _
  cases r with
  | none => exact hafter { j.workers.get s with phase := .awaitingJoin id } (Nat.le_refl _)
  | some r =>
    cases r with
    | refused e => exact hafter { j.workers.get s with phase := .stopped } (Nat.zero_le _)
    | failed f => exact hafter { j.workers.get s with phase := .crashed (.fault f) } (Nat.zero_le _)
    | acquired | joined | drained => exact hadvance

/-- A worker that looks for room has less `effort` ahead. What it passes on costs the next stage no
more than it saves. -/
private theorem effort_push {m : Queue.Monitor Actor WriteId} {r : Option (Queue.Reply WriteId)}
    (hnext : s.next = some t)
    (hphase : (j.workers.get s).phase = if first then .pushing id else .awaitingRoom id)
    (hvisit : (j.queues.get t).Visit (.worker s) (.push id) first m r) :
    ((j.setQueue t m).afterPush s t id first r).1.effort < j.effort := by
  have hlook := look first
  -- The effort of going on includes that of the item in the next queue.
  have honward := Stage.onwardEffort_of_next hnext
  have hbefore : (j.workers.get s).phase.effort s = s.onwardEffort - 1 + first.toNat := by
    rw [hphase]
    cases first with
    | true => show s.onwardEffort = s.onwardEffort - 1 + 1; omega
    | false => rfl
  have hqueue := j.effort_setQueue t m
  have hmove (p : Phase) : ((j.setQueue t m).setPhase s p).effort +
      (s.onwardEffort - 1 + first.toNat) = (j.setQueue t m).effort + p.effort s :=
    hbefore ▸ (j.setQueue t m).effort_setPhase s p
  rcases hvisit.effort_push t.itemEffort with ⟨rfl, haccepted⟩ | ⟨hr, hnone⟩
  · have hafter : ((j.setQueue t m).setPhase s .popping).effort +
        (s.onwardEffort - 1 + first.toNat) = (j.setQueue t m).effort + 1 := hmove .popping
    show ((j.setQueue t m).setPhase s .popping).effort < _
    omega
  · have hafter {j' : Journal} (p : Phase) (heq : j' = (j.setQueue t m).setPhase s p)
        (hp : p.effort s ≤ s.onwardEffort - 1) : j'.effort < j.effort := by
      have := hmove p
      rw [← heq] at this
      omega
    cases r with
    | none => exact hafter (.awaitingRoom id) rfl (Nat.le_refl _)
    | some r =>
      cases r with
      | pushed => exact absurd rfl hr
      | _ => exact hafter .stopped rfl (Nat.zero_le _)

variable {k : Nat} {left : List WriteId} {answers : List (Option JournalError)}

/-- A submitter that looks for room has less `effort` ahead, in the same way. -/
private theorem effort_submit {m : Queue.Monitor Actor WriteId} {r : Option (Queue.Reply WriteId)}
    (hcaller : j.callers[k]? =
      some (.submitter (if first then .admitted id else .awaitingRoom id) left answers))
    (hvisit : (j.queues.get .metadata).Visit (.caller k) (.push id) first m r) :
    ((j.setQueue .metadata m).afterSubmit k id left answers first r).1.effort < j.effort := by
  have hlook := look first
  have hbefore : (Caller.submitter (if first then .admitted id else .awaitingRoom id) left
      answers).effort = Stage.metadata.itemEffort + wakeEffort + 1 + first.toNat +
        requestEffort * left.length := by
    cases first <;> rfl
  have hqueue := j.effort_setQueue .metadata m
  have hmove (c : Caller) : ((j.setQueue .metadata m).setCaller k c).effort +
      (Stage.metadata.itemEffort + wakeEffort + 1 + first.toNat + requestEffort * left.length) =
        (j.setQueue .metadata m).effort + c.effort :=
    hbefore ▸ effort_setCaller (j := j.setQueue .metadata m) hcaller c
  rcases hvisit.effort_push Stage.metadata.itemEffort with ⟨rfl, haccepted⟩ | ⟨hr, hnone⟩
  · have hafter := hmove (.submitter .between left (answers ++ [none]))
    show ((j.setQueue .metadata m).setCaller k _).effort < _
    simp only [Caller.effort, Submission.effort] at hafter
    omega
  · have hafter {j' : Journal} (point : Submission) (answers' : List (Option JournalError))
        (heq : j' = (j.setQueue .metadata m).setCaller k (.submitter point left answers'))
        (hpoint : point.effort ≤ Stage.metadata.itemEffort + wakeEffort + 1) :
        j'.effort < j.effort := by
      have := hmove (.submitter point left answers')
      rw [← heq] at this
      simp only [Caller.effort] at this
      omega
    cases r with
    | none => exact hafter (.awaitingRoom id) answers rfl (Nat.le_refl _)
    | some r =>
      cases r with
      | pushed => exact absurd rfl hr
      | _ => exact hafter .between (answers ++ [some .shutDown]) rfl (Nat.zero_le _)

/-- A submitter that looks for a slot has less `effort` ahead, whether it gets it, sleeps or is
refused. -/
private theorem effort_acquire {m : Table.Monitor Actor} {r : Option Table.Reply}
    (hcaller : j.callers[k]? = some (if first then .submitter .between (id :: left) answers
      else .submitter (.awaitingSlot id) left answers))
    (hvisit : j.table.Visit (.caller k) (.slot id) first m r) :
    ({ j with table := m }.afterAcquire k id left answers r).1.effort < j.effort := by
  have hlook := look first
  have hwoken := hvisit.length_woken
  have hbefore : (if first then Caller.submitter .between (id :: left) answers
      else .submitter (.awaitingSlot id) left answers).effort =
        Stage.metadata.itemEffort + wakeEffort + 3 + first.toNat +
          requestEffort * left.length := by
    -- The first look begins a new request, whose effort covers the whole way to the queue.
    cases first with
    | true =>
      show 0 + requestEffort * (left.length + 1) = _ + 1 + _
      rw [Nat.mul_add, requestEffort]
      omega
    | false => rfl
  have htable := j.effort_setTable m
  have hafter {j' : Journal} (point : Submission) (answers' : List (Option JournalError))
      (heq : j' = setCaller { j with table := m } k (.submitter point left answers'))
      (hpoint : point.effort ≤ Stage.metadata.itemEffort + wakeEffort + 3) :
      j'.effort < j.effort := by
    have hmove := effort_setCaller (j := { j with table := m }) hcaller
      (.submitter point left answers')
    rw [hbefore, ← heq] at hmove
    simp only [Caller.effort] at hmove
    omega
  rcases hvisit.slot_cases with ⟨g, rfl, -⟩ | ⟨e, rfl, -⟩ | ⟨rfl, -⟩
  · exact hafter (.admitted id) answers rfl (Nat.le_succ _)
  · exact hafter .between (answers ++ [some e]) rfl (Nat.zero_le _)
  · exact hafter (.awaitingSlot id) answers rfl (Nat.le_refl _)

/-- A caller that waits for all writes has less `effort` ahead with each look. -/
private theorem effort_drain {m : Table.Monitor Actor} {r : Option Table.Reply}
    (hcaller : j.callers[k]? = some (.drainer (if first then .entering else .awaiting)))
    (hvisit : j.table.Visit (.caller k) .drain first m r) :
    ({ j with table := m }.afterDrain k r).1.effort < j.effort := by
  have hlook := look first
  have hwoken := hvisit.length_woken
  have hbefore : (Caller.drainer (if first then .entering else .awaiting)).effort =
      first.toNat := by
    cases first <;> rfl
  have htable := j.effort_setTable m
  have hafter {j' : Journal} (point : Drain)
      (heq : j' = setCaller { j with table := m } k (.drainer point))
      (hpoint : (Caller.drainer point).effort = 0) : j'.effort < j.effort := by
    have hmove := effort_setCaller (j := { j with table := m }) hcaller (.drainer point)
    rw [hbefore, hpoint, ← heq] at hmove
    omega
  cases r with
  | none => exact hafter .awaiting rfl rfl
  | some r => exact hafter .returned rfl rfl

end

/-! ## Other steps of an actor -/

/-- The notification that is sent weighs `wakeEffort`, more than the callers that it wakes. -/
private theorem effort_deliver {m : Queue.Monitor Actor WriteId}
    (hdeliver : (j.queues.get s).deliver a = some m)
    (hwoken : (j.setQueue s m).woken < wakeEffort) : (j.setQueue s m).effort < j.effort := by
  have hqueue := j.effort_setQueue s m
  have hsent := Queue.Monitor.effort_deliver hdeliver s.itemEffort
  have hwoken' := j.woken_setQueue s m
  omega

/-- An operation that is put on record takes one more step, to be handed over, but weighs
`operationEffort` no more. -/
private theorem effort_record {id : WriteId} {op : Operation} {left : List Operation}
    (hphase : (j.workers.get s).phase = .issuing id (op :: left)) :
    (j.record s id op left).1.effort < j.effort := by
  unfold Journal.record
  split
  · rename_i m g hissue
    have hwaiters := congrArg (·.woken.length) (Table.Monitor.recordIssue_waiters hissue)
    have htable := j.effort_setTable m
    have hmove := effort_setPhase { j with table := m } s (.handing ⟨id, op, g⟩ left)
    simp only [hphase, Phase.effort, List.length_cons, Nat.mul_add, Stage.operationEffort]
      at hwaiters hmove
    simp only
    omega
  · rename_i f _
    have hmove := j.effort_setPhase s (.crashed (.fault f))
    simp only [hphase, Phase.effort] at hmove ⊢
    omega

/-- The token that is handed over takes `issueEffort` with it, for the device to work off. -/
private theorem effort_hand {t : Token} {left : List Operation}
    (hphase : (j.workers.get s).phase = .handing t left) :
    (j.hand s t (.issuing t.writeId left)).1.effort + issueEffort < j.effort := by
  have hmove := effort_setPhase { j with outstanding := j.outstanding ++ [t] } s
    (.issuing t.writeId left)
  have hsame : effort { j with outstanding := j.outstanding ++ [t] } = j.effort := rfl
  simp only [hphase, Phase.effort, hsame] at hmove
  simp only [Journal.hand]
  omega

/-- A worker that goes from `notifying` to `marking` has less `effort` ahead. -/
private theorem effort_notify {id : WriteId} (hphase : (j.workers.get s).phase = .notifying id) :
    (j.notify s id false).1.effort < j.effort := by
  have hmove := j.effort_setPhase s (.marking id)
  have hle := s.le_onwardEffort
  simp only [hphase, Phase.effort] at hmove
  simp only [Journal.notify, Bool.false_eq_true, if_false]
  omega

/-- The mark weighs `wakeEffort`, more than the callers that it wakes if it releases the slot. -/
private theorem effort_mark {id : WriteId} (hphase : (j.workers.get s).phase = .marking id)
    (hwoken : (j.mark s id).1.woken < wakeEffort) : (j.mark s id).1.effort < j.effort := by
  unfold Journal.mark
  split
  · rename_i m released hmark
    have htable := j.effort_setTable m
    have hmove := effort_setPhase { j with table := m } s .popping
    rw [Journal.mark, hmark] at hwoken
    have hwoken' : m.waiters.woken.length < wakeEffort := Nat.lt_of_le_of_lt
      (Nat.le_add_left ..) hwoken
    simp only [hphase, Phase.effort] at hmove
    simp only
    omega
  · rename_i f _
    have hmove := j.effort_setPhase s (.crashed (.fault f))
    simp only [hphase, Phase.effort] at hmove ⊢
    omega

/-- Closing a queue takes two notifications, which `Closing.effort` has for each stage. -/
private theorem effort_close {closing : Closing} (hclosing : j.closing = .closing s)
    (hnext : closing = s.next.elim .aborting .closing) :
    effort { j.setQueue s ((j.queues.get s).close .closer) with closing } < j.effort := by
  have hqueue := j.effort_setQueue s ((j.queues.get s).close .closer)
  rw [Queue.Monitor.effort_close] at hqueue
  have hplace : closing.effort + 2 * wakeEffort + 1 = (Closing.closing s).effort := by
    rw [hnext]
    cases s <;> rfl
  have hmove := (j.setQueue s ((j.queues.get s).close .closer)).effort_setClosing closing
  rw [show (j.setQueue s ((j.queues.get s).close .closer)).closing = .closing s from hclosing]
    at hmove
  dsimp only
  omega

/-- The table that is shut down wakes everybody there, for which `Closing.effort` has a
`wakeEffort`. -/
private theorem effort_abort (hclosing : j.closing = .aborting)
    (hwoken : woken { j with table := j.table.shutDown, closing := .joining .metadata } <
      wakeEffort) :
    effort { j with table := j.table.shutDown, closing := .joining .metadata } < j.effort := by
  have htable := j.effort_setTable j.table.shutDown
  have hmove : effort { j with table := j.table.shutDown, closing := .joining .metadata } +
      j.closing.effort = effort { j with table := j.table.shutDown } +
        (Closing.joining .metadata).effort :=
    effort_setClosing { j with table := j.table.shutDown } (.joining .metadata)
  have hwoken' : j.table.shutDown.waiters.woken.length < wakeEffort := Nat.lt_of_le_of_lt
    (Nat.le_add_left ..) hwoken
  have hplace : (Closing.joining .metadata).effort + wakeEffort + 1 = Closing.aborting.effort := rfl
  have hbefore : j.closing.effort = Closing.aborting.effort := congrArg _ hclosing
  omega

/-- A shutdown that finds a worker gone has one stage less in its `Closing.effort`. -/
private theorem effort_gone {closing : Closing} (hclosing : j.closing = .joining s)
    (hnext : closing = s.next.elim .done .joining) : effort { j with closing } < j.effort := by
  have hmove := j.effort_setClosing closing
  have hplace : closing.effort + 1 = (Closing.joining s).effort := by
    rw [hnext]
    cases s <;> rfl
  rw [hclosing] at hmove
  omega

/-- A step of an actor lowers the `effort`, and what it hands over is paid for (`issueEffort`). -/
theorem Change.effort_lt (h : Change j (.act a) step) (hwoken : step.1.woken < wakeEffort) :
    step.1.effort + issueEffort * handedCount step.2 < j.effort := by
  -- Only `hand` yields an event of a token that is handed over.
  have hquiet (hes : ∀ e ∈ step.2, Simulation.handed? e = none)
      (hlt : step.1.effort < j.effort) :
      step.1.effort + issueEffort * handedCount step.2 < j.effort := by
    rw [handedCount_of_ne hes]
    exact hlt
  cases h with
  | deliver hdeliver => exact hquiet (by simp) (effort_deliver hdeliver hwoken)
  | pop hphase hvisit =>
    refine hquiet ?_ (effort_pop hphase hvisit)
    unfold afterPop
    split <;> simp [Simulation.handed?]
  | record hphase =>
    refine hquiet ?_ (effort_record hphase)
    unfold Journal.record
    split <;> simp [Simulation.handed?]
  | hand hphase => exact effort_hand hphase
  | @join s id first m r hphase hvisit =>
    refine hquiet ?_ (effort_join hphase hvisit)
    unfold afterJoin stopOn Journal.advance
    split
    · simp [Simulation.handed?]
    · simp
    · cases s <;> simp [Simulation.handed?, Stage.next]
    · simp
  | @push s t id first m r hnext hphase hvisit =>
    refine hquiet ?_ (effort_push hnext hphase hvisit)
    unfold afterPush stopOn
    split <;> cases first <;> simp [Simulation.handed?]
  | notify hphase =>
    exact hquiet (by simp [Journal.notify, Simulation.handed?]) (effort_notify hphase)
  | mark hphase =>
    refine hquiet ?_ (effort_mark hphase hwoken)
    unfold Journal.mark
    split <;> simp [Simulation.handed?]
  | acquire hcaller hvisit =>
    refine hquiet ?_ (effort_acquire hcaller hvisit)
    unfold afterAcquire
    split <;> simp [Simulation.handed?]
  | @submit k id left answers first m r hcaller hvisit =>
    refine hquiet ?_ (effort_submit hcaller hvisit)
    unfold afterSubmit
    split <;> cases first <;> simp [Simulation.handed?]
  | drain hcaller hvisit =>
    refine hquiet ?_ (effort_drain hcaller hvisit)
    unfold afterDrain
    split <;> simp
  | close hclosing hnot hnext => exact hquiet (by simp) (effort_close hclosing hnext)
  | abort hclosing hsettled => exact hquiet (by simp) (effort_abort hclosing hwoken)
  | gone hclosing hnot hes hover hnext =>
    exact hquiet (fun e he => by rcases hes e he with rfl | rfl <;> rfl)
      (effort_gone hclosing hnext)

/-- A request adds the `requestEffort` of a write to that of the journal. -/
theorem effort_submit_call (j : Journal) (id : WriteId) :
    (j.call (.submitter .between [id] [])).effort = j.effort + requestEffort := by
  rw [effort_call]
  simp [Caller.effort, Submission.effort]

/-- A completion raises the `effort` by no more than the callers that it wakes. -/
theorem effort_complete (t : Token) (hwoken : (j.complete t).1.woken < wakeEffort) :
    (j.complete t).1.effort < j.effort + wakeEffort := by
  have htable := effort_setTable { j with outstanding := j.outstanding.erase t }
    (j.complete t).1.table
  have hsame : effort { j with outstanding := j.outstanding.erase t } = j.effort := rfl
  have hafter : (j.complete t).1 =
      { j with outstanding := j.outstanding.erase t, table := (j.complete t).1.table } := rfl
  have hwoken' : (j.complete t).1.table.waiters.woken.length < wakeEffort :=
    Nat.lt_of_le_of_lt (Nat.le_add_left ..) hwoken
  rw [hafter]
  simp only [hsame] at htable
  omega

/-! ## Who is woken -/

/-- The actors that are woken at some monitor. -/
private def wokenActors (j : Journal) : List Actor :=
  (Stage.all.flatMap fun s => (j.queues.get s).waiters.woken.map Prod.fst) ++
    j.table.waiters.woken.map Prod.fst

private theorem length_wokenActors (j : Journal) : j.wokenActors.length = j.woken := by
  simp [wokenActors, woken, PerStage.total, List.length_flatMap]

/-- Nobody waits both at a queue (`queueWant?`) and at the table (`tableWant?`). -/
private theorem tableWant?_eq_none {j : Journal} (h : (j.queueWant? a).isSome = true) :
    j.tableWant? a = none := by
  cases a with
  | worker s =>
    rw [queueWant?] at h
    rw [tableWant?]
    cases hphase : (j.workers.get s).phase <;> rw [hphase] at h <;> first | rfl | cases h
  | caller k =>
    rw [queueWant?] at h
    rw [tableWant?]
    cases hcaller : j.callers[k]? with
    | none => rfl
    | some caller =>
      rw [hcaller] at h
      cases caller with
      | submitter point => cases point <;> first | rfl | cases h
      | drainer => cases h
  | closer => rfl

/-- Who is woken at a queue has a `queueWant?` there, says its phase. -/
private theorem Attended.queueWant?_of_woken (h : j.Attended)
    (hmem : a ∈ (j.queues.get s).waiters.woken.map Prod.fst) :
    ∃ want, j.queueWant? a = some (s, want) := by
  obtain ⟨⟨b, want⟩, hwoken, rfl⟩ := List.mem_map.mp hmem
  exact ⟨want, ((h.queues s).mem_iff b want).mp (List.mem_append_right _ hwoken)⟩

private theorem Attended.tableWant?_of_woken (h : j.Attended)
    (hmem : a ∈ j.table.waiters.woken.map Prod.fst) : ∃ want, j.tableWant? a = some want := by
  obtain ⟨⟨b, want⟩, hwoken, rfl⟩ := List.mem_map.mp hmem
  exact ⟨want, (h.table.mem_iff b want).mp (List.mem_append_right _ hwoken)⟩

/-- Nobody is twice among the `wokenActors`, at one monitor or at two. -/
private theorem Attended.nodup_wokenActors (h : j.Attended) : j.wokenActors.Nodup := by
  have hsuffix {ω : Type} (w : Waiters Actor ω) :
      (w.woken.map Prod.fst).Sublist (w.all.map Prod.fst) :=
    (List.sublist_append_right _ _).map _
  refine List.Nodup.append ?_ ((hsuffix _).nodup h.table.nodup) ?_
  · refine List.nodup_flatMap.mpr ⟨fun s _ => (hsuffix _).nodup (h.queues s).nodup, ?_⟩
    have hstages : Stage.all.Nodup := by decide
    refine hstages.imp fun {s t} hne b hs ht => hne ?_
    obtain ⟨want, hwant⟩ := h.queueWant?_of_woken hs
    obtain ⟨want', hwant'⟩ := h.queueWant?_of_woken ht
    exact (Prod.mk.inj (Option.some.inj (hwant.symm.trans hwant'))).1
  · intro b hqueue htable
    obtain ⟨s, -, hs⟩ := List.mem_flatMap.mp hqueue
    obtain ⟨want, hwant⟩ := h.queueWant?_of_woken hs
    obtain ⟨want', hwant'⟩ := h.tableWant?_of_woken htable
    rw [tableWant?_eq_none (by rw [hwant]; rfl)] at hwant'
    exact nomatch hwant'

/-- Whoever is among the `wokenActors` is a worker, or a caller whose calls have not all
returned. -/
private theorem Attended.waiting (h : j.Attended) (hmem : a ∈ j.wokenActors) :
    (∃ s, a = .worker s) ∨
      ∃ k caller, a = .caller k ∧ j.callers[k]? = some caller ∧ caller.isOver = false := by
  have hwants : (j.queueWant? a).isSome = true ∨ (j.tableWant? a).isSome = true := by
    rcases List.mem_append.mp hmem with hmem | hmem
    · obtain ⟨s, -, hs⟩ := List.mem_flatMap.mp hmem
      obtain ⟨want, hwant⟩ := h.queueWant?_of_woken hs
      exact .inl (by rw [hwant]; rfl)
    · obtain ⟨want, hwant⟩ := h.tableWant?_of_woken hmem
      exact .inr (by rw [hwant]; rfl)
  -- Who wants something is a worker or a caller in the middle of its call.
  cases a with
  | worker s => exact .inl ⟨s, rfl⟩
  | caller k =>
    right
    cases hcaller : j.callers[k]? with
    | none => simp [queueWant?, tableWant?, hcaller] at hwants
    | some caller =>
      refine ⟨k, caller, rfl, hcaller, ?_⟩
      simp only [queueWant?, tableWant?, hcaller, Option.bind_some] at hwants
      cases caller with
      | submitter point left answers =>
        cases point <;> simp_all [Caller.queueWant?, Caller.tableWant?, Caller.isOver]
      | drainer point =>
        cases point <;> simp_all [Caller.queueWant?, Caller.tableWant?, Caller.isOver]
  | closer => simp [queueWant?, tableWant?] at hwants

/-- If the calls of all callers but the last have returned, the workers and that one are all that
ever wait, so `woken` stays below `wakeEffort`. -/
theorem Attended.woken_lt (h : j.Attended)
    (hlast : ∀ k caller, j.callers[k]? = some caller → k + 1 < j.callers.length →
      caller.isOver = true) : j.woken < wakeEffort := by
  have hsubset : j.wokenActors ⊆
      .caller (j.callers.length - 1) :: Stage.all.map .worker := by
    intro a ha
    rcases h.waiting ha with ⟨s, rfl⟩ | ⟨k, caller, rfl, hcaller, hover⟩
    · exact List.mem_cons_of_mem _ (List.mem_map_of_mem (Stage.mem_all s))
    · have hlt : k < j.callers.length := (List.getElem?_eq_some_iff.mp hcaller).1
      have hle : ¬ k + 1 < j.callers.length := fun hbefore => by
        rw [hlast k caller hcaller hbefore] at hover
        exact nomatch hover
      obtain rfl : k = j.callers.length - 1 := by omega
      exact List.mem_cons_self
  have hlength := (List.subperm_of_subset h.nodup_wokenActors hsubset).length_le
  rw [length_wokenActors] at hlength
  exact Nat.lt_succ_of_le hlength

end Journal

end WriteAhead
