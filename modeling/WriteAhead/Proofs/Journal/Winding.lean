import WriteAhead.Proofs.Journal.Dismissal

/-!
# Workers of a journal whose table is shut down

A shutdown closes the queues and shuts the table down, and then waits for the workers. From there on
every worker takes a bounded number of steps: `stepsLeft` goes down on each of its own, and nobody
else's step makes it grow. Nobody can push any more, so a worker that has a next stage comes to its
end with the write that it has or with the next that it takes, and the last worker with those that
are queued.

## Key results

- `Change.handlesHeld`: a worker does everything that it does for the write that it has
- `Change.ownStep`: what a worker does in a step of its own
- `Run.windsUp`: what any number of steps does to a stage
-/

namespace WriteAhead

/-! ## What is left to do -/

/-- How many steps a worker has left at most when it turns to its queue. -/
def Stage.roundsLeft (s : Stage) (queued : Nat) : Nat :=
  match s.next with
  | some _ => 2 * s.operations.length + 4
  | none => (2 * s.operations.length + 5) * queued + 1

/-- How many steps a worker has left at most with a write that has passed the join. -/
def Stage.onwardLeft (s : Stage) (queued : Nat) : Nat :=
  match s.next with
  | some _ => 1
  | none => s.roundsLeft queued + 2

/-- How many steps a worker has left at most, with so many writes in its queue. -/
def Phase.stepsLeft (s : Stage) (queued : Nat) : Phase → Nat
  | .popping | .awaitingItem => s.roundsLeft queued
  | .issuing _ left => 2 * left.length + 1 + s.onwardLeft queued
  | .handing _ left => 2 * left.length + 2 + s.onwardLeft queued
  | .awaitingJoin _ => s.onwardLeft queued + 1
  | .pushing _ | .awaitingRoom _ => 1
  | .notifying _ => s.roundsLeft queued + 2
  | .marking _ => s.roundsLeft queued + 1
  | .stopped | .crashed _ => 0

/-- How many writes a worker takes at most, with so many in its queue: one that cannot pass its
write on takes no other. -/
def Phase.takesLeft (s : Stage) (queued : Nat) (p : Phase) : Nat :=
  match s.next with
  | none => queued
  | some _ =>
    match p with
    | .popping | .awaitingItem => 1
    | _ => 0

/-- The worker that does something for a write, and the write. -/
def Event.handles? : Event → Option (Stage × WriteId)
  | .issued s t | .handed s t => some (s, t.writeId)
  | .advanced s _ id | .workerStopping s id _ => some (s, id)
  | .persisted id | .notified id | .checkpointed id _ => some (.checkpoint, id)
  | _ => none

namespace Journal

/-- How many notifications an actor owes. -/
def owedBy (j : Journal) (a : Actor) : Nat :=
  (Stage.all.flatMap fun s => (j.queues.get s).owed).countP (·.1 = a)

/-- How many steps the worker of a stage has left at most. -/
def stepsLeft (j : Journal) (s : Stage) : Nat :=
  j.owedBy (.worker s) + (j.workers.get s).phase.stepsLeft s (j.queue s).length

/-- How many writes the worker of a stage takes at most. -/
def takesLeft (j : Journal) (s : Stage) : Nat :=
  (j.workers.get s).phase.takesLeft s (j.queue s).length

/-- The write that the worker of a stage has, in a list. -/
def heldBy (j : Journal) (s : Stage) : List WriteId := (j.workers.get s).phase.held?.toList

variable {c : Config} {as as' : List Action} {j j' : Journal} {es es' : List Event} {a : Action}
  {s t : Stage} {step : Step} {b : Actor}

/-- Another queue in a stage trades what an actor owes there in `owedBy`. -/
theorem owedBy_setQueue {m : Queue.Monitor Actor WriteId} (less more : Nat)
    (h : m.owed.countP (·.1 = b) + less = (j.queues.get s).owed.countP (·.1 = b) + more) :
    (j.setQueue s m).owedBy b + less = j.owedBy b + more := by
  cases s <;>
    simp only [owedBy, Stage.all, setQueue, PerStage.get_set, List.flatMap_cons, List.flatMap_nil,
      List.countP_append, List.countP_nil, reduceCtorEq, if_true, if_false] <;> omega

theorem owedBy_congr (h : j'.queues = j.queues) (b : Actor) : j'.owedBy b = j.owedBy b := by
  rw [owedBy, h]
  rfl

theorem queue_congr (h : j'.queues = j.queues) (s : Stage) : j'.queue s = j.queue s :=
  congrArg (fun queues => (queues.get s).queue) h

/-- A notification less is owed (`owedBy`) by whoever sends it. -/
theorem owedBy_deliver {m : Queue.Monitor Actor WriteId} {d : Actor}
    (h : (j.queues.get s).deliver d = some m) :
    (j.setQueue s m).owedBy b + (if d = b then 1 else 0) = j.owedBy b := by
  obtain ⟨sig, hperm⟩ := Queue.Monitor.deliver_owed_perm h
  have hcount := hperm.countP_eq (·.1 = b)
  rw [List.countP_cons] at hcount
  simp only [decide_eq_true_eq] at hcount
  exact owedBy_setQueue _ 0 hcount.symm

/-! ## What a step leaves as it is -/

/-- All queues are `closed` once the table is shut down (`hasAborted`). -/
theorem Run.closed_of_hasAborted (hrun : Run c as j es) (habort : j.closing.hasAborted = true)
    (s : Stage) : (j.queues.get s).queue.closed = true :=
  (hrun.orderly.closed s).trans (Closing.hasClosed_of_hasAborted habort s)

/-- Nobody brings a write to the first queue any more once the table is shut down (`hasAborted`). -/
theorem Run.not_submitting (hrun : Run c as j es) (habort : j.closing.hasAborted = true) {k : Nat}
    {first : Bool} {id : WriteId} {left : List WriteId} {answers : List (Option JournalError)} :
    j.callers[k]? ≠
      some (.submitter (if first then .admitted id else .awaitingRoom id) left answers) := by
  intro hcaller
  have hpoint :=
    hrun.secluded.between (Closing.ne_open_of_hasAborted habort) k _ left answers hcaller
  cases first <;> exact nomatch hpoint

/-- The `queue` of a stage changes only when its worker takes a write: nobody can push to a closed
one. -/
theorem Change.queue_eq (h : Change j a step) (hrun : Run c as j es)
    (habort : j.closing.hasAborted = true)
    (ht : (j.workers.get t).phase.isOver = true ∨ a.worker? ≠ some t) :
    step.1.queue t = j.queue t := by
  have hclosed := hrun.closed_of_hasAborted habort t
  have htends := h.tends t
  show (step.1.queues.get t).queue = _
  generalize step.1.queues.get t = m at htends
  cases htends with
  | leaves => rfl
  | delivers hdeliver => exact Queue.Monitor.deliver_queue hdeliver
  | @pops first m r hphase hvisit =>
    exfalso
    rcases ht with hover | hne
    · rw [hphase] at hover
      cases first <;> exact nomatch hover
    · exact hne rfl
  -- The queues are closed since the abort, so nothing is added.
  | pushes hvisit => exact (hvisit.push_of_closed hclosed).2.1
  | submits hcaller hvisit => exact absurd hcaller (hrun.not_submitting habort)
  | closes hclosing =>
    rw [hclosing] at habort
    exact nomatch habort

/-- Nobody owes more (`owedBy`) after the step of another. -/
theorem Change.owedBy_le (h : Change j a step) (hb : a ≠ .act b) :
    step.1.owedBy b ≤ j.owedBy b := by
  -- Queue by queue, and then summed: only the actor itself adds to what it owes.
  have hqueue (t : Stage) : (step.1.queues.get t).owed.countP (·.1 = b) ≤
      (j.queues.get t).owed.countP (·.1 = b) := by
    have hne {d : Actor} (hd : Action.act d ≠ .act b) : d ≠ b := fun heq => hd (by rw [heq])
    have htends := h.tends t
    generalize step.1.queues.get t = m at htends
    cases htends with
    | leaves => exact Nat.le_refl _
    | delivers hdeliver =>
      obtain ⟨sig, hperm⟩ := Queue.Monitor.deliver_owed_perm hdeliver
      rw [hperm.countP_eq, List.countP_cons]
      exact Nat.le_add_right ..
    | pops _ hvisit => exact Nat.le_of_eq (hvisit.countP_owed (hne hb))
    | pushes hvisit => exact Nat.le_of_eq (hvisit.countP_owed (hne hb))
    | submits _ hvisit => exact Nat.le_of_eq (hvisit.countP_owed (hne hb))
    | closes => simp [Queue.Monitor.close, Queue.Monitor.owe, hne hb]
  have hmetadata := hqueue .metadata
  have hcommit := hqueue .commit
  have hcheckpoint := hqueue .checkpoint
  simp only [owedBy, Stage.all, List.flatMap_cons, List.flatMap_nil, List.countP_append,
    List.countP_nil]
  omega

/-! ## What a worker does -/

/-- Every event of `es` that handles a write is one of a worker that has the write in `j`. -/
def HandlesHeld (j : Journal) (es : List Event) : Prop :=
  ∀ e ∈ es, ∀ s id, e.handles? = some (s, id) → (j.workers.get s).phase.held? = some id

namespace HandlesHeld

theorem nil (j : Journal) : j.HandlesHeld [] := nofun

/-- Events that handle no write (`handles?`) are of no worker. -/
theorem of_none {e : Event} (h : e.handles? = none) : j.HandlesHeld [e] := by
  intro e' he s id hhandles
  rw [List.mem_singleton.mp he, h] at hhandles
  exact nomatch hhandles

/-- An event on the write that its worker has (`held?`). -/
theorem own {e : Event} {id : WriteId} (hheld : (j.workers.get s).phase.held? = some id)
    (h : e.handles? = some (s, id)) : j.HandlesHeld [e] := by
  intro e' he t v hhandles
  rw [List.mem_singleton.mp he, h] at hhandles
  obtain ⟨rfl, rfl⟩ := Prod.mk.inj (Option.some.inj hhandles)
  exact hheld

/-- More events that are on what their workers have (`HandlesHeld`). -/
theorem cons {e : Event} (h : j.HandlesHeld [e]) (hes : j.HandlesHeld es) :
    j.HandlesHeld (e :: es) := by
  intro e' he
  rcases List.mem_cons.mp he with rfl | he
  · exact h e' List.mem_cons_self
  · exact hes e' he

/-- The events of `stopOn`, an error on the write and the end, are on the write that the worker
has. -/
theorem stopOn {j₁ : Journal} {id : WriteId} {e : JournalError}
    (hheld : (j.workers.get s).phase.held? = some id) : j.HandlesHeld (j₁.stopOn s id e).2 :=
  cons (own hheld rfl) (of_none rfl)

/-- `advance` tells which stage passes the write, or that the last one did. -/
theorem advance {j₁ : Journal} {id : WriteId}
    (hheld : (j.workers.get s).phase.held? = some id) : j.HandlesHeld (j₁.advance s id).2 := by
  cases s <;> exact own hheld rfl

/-- What `afterPop` says of the queue is on no write that another worker has. -/
theorem afterPop {j₁ : Journal} (r : Option (Queue.Reply WriteId)) :
    j.HandlesHeld (j₁.afterPop s r).2 := by
  cases r with
  | none => exact nil j
  | some r =>
    cases r with
    | item => exact nil j
    | _ => exact of_none rfl

/-- What `record` says is on the write that the worker has. -/
theorem record {id : WriteId} {op : Operation} {left : List Operation}
    (hheld : (j.workers.get s).phase.held? = some id) :
    j.HandlesHeld (j.record s id op left).2 := by
  unfold Journal.record
  split
  · exact own hheld rfl
  · exact nil j

/-- What `afterJoin` says is on the write that the worker has. -/
theorem afterJoin {j₁ : Journal} {id : WriteId} (r : Option Table.Reply)
    (hheld : (j.workers.get s).phase.held? = some id) :
    j.HandlesHeld (j₁.afterJoin s id r).2 := by
  cases r with
  | none => exact nil j
  | some r =>
    cases r with
    | failed => exact nil j
    | refused => exact stopOn hheld
    | acquired | joined | drained => exact advance hheld

/-- What `afterPush` says is on the write that the worker has. -/
theorem afterPush {j₁ : Journal} {id : WriteId} (first : Bool) (r : Option (Queue.Reply WriteId))
    (hheld : (j.workers.get s).phase.held? = some id) :
    j.HandlesHeld (j₁.afterPush s t id first r).2 := by
  cases r with
  | none =>
    cases first
    · exact nil j
    · exact of_none rfl
  | some r =>
    cases r with
    | pushed => exact nil j
    | _ => exact stopOn hheld

/-- Only the last worker marks a checkpoint, so `checkpointed` need not say which. -/
theorem mark {id : WriteId} (hheld : (j.workers.get .checkpoint).phase.held? = some id) :
    j.HandlesHeld (j.mark .checkpoint id).2 := by
  unfold Journal.mark
  split
  · exact own hheld rfl
  · exact nil j

/-- What `afterAcquire` says is on the write of a caller, and of no worker. -/
theorem afterAcquire {j₁ : Journal} {k : Nat} {id : WriteId} {left : List WriteId}
    {answers : List (Option JournalError)} (r : Option Table.Reply) :
    j.HandlesHeld (j₁.afterAcquire k id left answers r).2 := by
  cases r with
  | none => exact of_none rfl
  | some r =>
    cases r with
    | acquired | refused => exact of_none rfl
    | joined | drained | failed => exact nil j

/-- What `afterSubmit` says is on the write of a caller, and of no worker. -/
theorem afterSubmit {j₁ : Journal} {k : Nat} {id : WriteId} {left : List WriteId}
    {answers : List (Option JournalError)} (first : Bool) (r : Option (Queue.Reply WriteId)) :
    j.HandlesHeld (j₁.afterSubmit k id left answers first r).2 := by
  cases r with
  | none =>
    cases first
    · exact nil j
    · exact of_none rfl
  | some r => cases r <;> exact of_none rfl

end HandlesHeld

/-- Everything that a worker does for a write (`handles?`) is done for the one that it has. -/
theorem Change.handlesHeld (h : Change j a step)
    (hsuits : ∀ t, Pipeline.Suits t (j.pipeline.workers.get t)) : j.HandlesHeld step.2 := by
  -- What only the last worker does is put down to it whoever did it.
  have hlast {u : Stage} {v : WriteId} {p : Phase} (hphase : (j.workers.get u).phase = p)
      (hp : p = .notifying v ∨ p = .marking v) : u = .checkpoint := by
    have hu := hsuits u
    rw [workers_pipeline, hphase] at hu
    rcases hp with rfl | rfl <;> exact Stage.eq_checkpoint_of_last hu
  cases h with
  | @pop u first m r => exact .afterPop r
  | record hphase => exact .record (congrArg Phase.held? hphase)
  | hand hphase | devicePanic hphase => exact .own (congrArg Phase.held? hphase) rfl
  | @join u v first m r hphase =>
    refine .afterJoin r ?_
    rw [hphase]
    cases first <;> rfl
  | @push u t v first m r hnext hphase =>
    refine .afterPush first r ?_
    rw [hphase]
    cases first <;> rfl
  | @notify u v hphase =>
    obtain rfl := hlast hphase (.inl rfl)
    exact .own (congrArg Phase.held? hphase) rfl
  | clientPanic hphase => exact .own (congrArg Phase.held? hphase) rfl
  | @mark u v hphase =>
    obtain rfl := hlast hphase (.inr rfl)
    exact .mark (congrArg Phase.held? hphase)
  | @gone u closing es hclosing hnot hes =>
    intro e he s id hhandles
    rcases hes e he with rfl | rfl <;> exact nomatch hhandles
  | complete | drop | report => exact .of_none rfl
  | @acquire k v left answers first m r => exact .afterAcquire r
  | @submit k v left answers first m r => exact .afterSubmit first r
  | @drain k first m r => cases r <;> exact .nil j
  | deliver | close | abort | arrive | await | shutDown | shutDownAgain => exact .nil j

/-- A worker that handles a write in a step (`handles?`) has the write before it. -/
theorem Change.handles (h : Change j a step)
    (hsuits : ∀ t, Pipeline.Suits t (j.pipeline.workers.get t)) {e : Event} {id : WriteId}
    (he : e ∈ step.2) (hhandles : e.handles? = some (s, id)) :
    (j.workers.get s).phase.held? = some id :=
  h.handlesHeld hsuits e he s id hhandles

/-! ## One step -/

/-- What the actions `as` do to a stage of which the journal is aborted. -/
structure WindsUp (j : Journal) (as : List Action) (j' : Journal) (es : List Event) (s : Stage) :
    Prop where
  /-- Each step of the worker is one less that it has left. -/
  steps : as.countP (·.worker? = some s) + j'.stepsLeft s ≤ j.stepsLeft s
  /-- Nobody pushes. -/
  pushed_eq : (j'.queue s).pushed = (j.queue s).pushed
  /-- The worker handles the write that it has and those that it takes from its queue, of which it
  takes few. -/
  handled : ∃ taken, (j.queue s).items = taken ++ (j'.queue s).items ∧
    (j'.queue s).popped = (j.queue s).popped + taken.length ∧
    taken.length + j'.takesLeft s ≤ j.takesLeft s ∧
    (∀ id ∈ j'.heldBy s, id ∈ j.heldBy s ++ taken) ∧
    ∀ e ∈ es, ∀ id, e.handles? = some (s, id) → id ∈ j.heldBy s ++ taken

theorem WindsUp.refl (j : Journal) (s : Stage) : WindsUp j [] j [] s := by
  refine ⟨by simp, rfl, [], rfl, rfl, by simp, fun id hid => by simpa using hid, nofun⟩

/-- What two stretches do to a stage, both of them together do: `WindsUp` is transitive. -/
theorem WindsUp.trans {j₁ : Journal} (h : WindsUp j as j₁ es s) (h' : WindsUp j₁ as' j' es' s) :
    WindsUp j (as ++ as') j' (es ++ es') s := by
  obtain ⟨taken, hitems, hpopped, htakes, hheld, hhandles⟩ := h.handled
  obtain ⟨taken', hitems', hpopped', htakes', hheld', hhandles'⟩ := h'.handled
  -- What the worker has in hand in the middle was in its hands before or has been taken since.
  have hlater : ∀ id ∈ j₁.heldBy s ++ taken', id ∈ j.heldBy s ++ (taken ++ taken') := by
    intro id hid
    rw [← List.append_assoc]
    rcases List.mem_append.mp hid with hid | hid
    · exact List.mem_append_left _ (hheld id hid)
    · exact List.mem_append_right _ hid
  constructor
  case steps =>
    have := h.steps
    have := h'.steps
    rw [List.countP_append]
    omega
  case pushed_eq => rw [h'.pushed_eq, h.pushed_eq]
  case handled =>
    refine ⟨taken ++ taken', ?_, ?_, ?_, fun id hid => hlater id (hheld' id hid),
      fun e he id hid => ?_⟩
    · rw [hitems, hitems', List.append_assoc]
    · rw [hpopped', hpopped, List.length_append]
      omega
    · rw [List.length_append]
      omega
    · rcases List.mem_append.mp he with he | he
      · have hmem := hhandles e he id hid
        rw [← List.append_assoc]
        exact List.mem_append_left _ hmem
      · exact hlater _ (hhandles' e he id hid)

/-- A worker that handles a write in a step of a run has the write in `heldBy`. -/
theorem Run.heldBy_of_handles (hrun : Run c as j es) (hstep : j.step a = some (j', es'))
    {e : Event} {id : WriteId} (he : e ∈ es') (hhandles : e.handles? = some (s, id)) :
    id ∈ j.heldBy s := by
  rw [heldBy, Option.mem_toList]
  exact (change_of_step hrun.attended hstep).handles hrun.pipeline.suited he hhandles

/-- A step on which a worker takes no write leaves it with the ones that it had, and with no more
`stepsLeft`. -/
theorem Run.windsUp_of_queue_eq (hrun : Run c as j es) (hstep : j.step a = some (j', es'))
    (hqueue : j'.queue s = j.queue s)
    (hsteps : [a].countP (·.worker? = some s) + j'.stepsLeft s ≤ j.stepsLeft s)
    (htakes : j'.takesLeft s ≤ j.takesLeft s) (hheld : ∀ id ∈ j'.heldBy s, id ∈ j.heldBy s) :
    WindsUp j [a] j' es' s := by
  refine ⟨hsteps, by rw [hqueue], [], by rw [hqueue]; rfl, by rw [hqueue]; rfl, ?_, ?_, ?_⟩
  · rw [List.length_nil, Nat.zero_add]
    exact htakes
  · intro id hid
    exact List.mem_append_left _ (hheld id hid)
  · intro e he id hid
    exact List.mem_append_left _ (hrun.heldBy_of_handles hstep he hid)

/-- A worker gets on from one phase to another: it has fewer steps left, takes no more writes and
has no other write. -/
structure GetsOn (s : Stage) (p p' : Phase) : Prop where
  steps : ∀ queued, p'.stepsLeft s queued + 1 ≤ p.stepsLeft s queued
  takes : ∀ queued, p'.takesLeft s queued ≤ p.takesLeft s queued
  held : ∀ id, p'.held? = some id → p.held? = some id

/-- What a worker of an aborted journal does in a step of its own. -/
inductive OwnStep (j : Journal) (s : Stage) (j' : Journal) : Prop where
  /-- It sends a notification. -/
  | sends (hqueue : j'.queue s = j.queue s)
      (hphase : (j'.workers.get s).phase = (j.workers.get s).phase)
      (howed : j'.owedBy (.worker s) + 1 = j.owedBy (.worker s))
  /-- It takes a write. -/
  | takes {id : WriteId} {rest : List WriteId} (hitems : (j.queue s).items = id :: rest)
      (hqueue : j'.queue s = { j.queue s with items := rest, popped := (j.queue s).popped + 1 })
      (hbefore : (j.workers.get s).phase = .popping ∨ (j.workers.get s).phase = .awaitingItem)
      (hphase : (j'.workers.get s).phase = .issuing id s.operations)
      (howed : j'.owedBy (.worker s) = j.owedBy (.worker s) + 1)
  /-- It goes on with the write that it has, or comes to its end. -/
  | goesOn (hqueue : j'.queue s = j.queue s)
      (howed : j'.owedBy (.worker s) = j.owedBy (.worker s))
      (hphase : GetsOn s (j.workers.get s).phase (j'.workers.get s).phase)

/-- A worker that comes to its end (`isOver`) has nothing left to do. -/
theorem getsOn_of_isOver {p p' : Phase} (halive : p.isOver = false) (hover : p'.isOver = true) :
    GetsOn s p p' := by
  -- A worker at its end has no step left, so the bounds are about the phase before.
  have hend : (∀ n, p'.stepsLeft s n = 0) ∧
      ∀ n, p'.takesLeft s n = if s.next = none then n else 0 := by
    cases p' <;> cases s <;> simp_all [Phase.isOver, Phase.stepsLeft, Phase.takesLeft, Stage.next]
  obtain ⟨hsteps, htakes⟩ := hend
  constructor
  case steps =>
    intro n
    rw [hsteps]
    cases p <;> simp_all [Phase.isOver, Phase.stepsLeft, Stage.roundsLeft, Stage.onwardLeft] <;>
      split <;> omega
  case takes =>
    intro n
    rw [htakes]
    cases s <;> simp [Phase.takesLeft, Stage.next]
  case held =>
    intro id hid
    rw [Phase.held?_of_isOver hover] at hid
    cases hid

/-- A worker that goes from `issuing` to `handing` has one step less for its operation. -/
theorem getsOn_record (op : Operation) (id : WriteId) (g : Generation) (left : List Operation) :
    GetsOn s (.issuing id (op :: left)) (.handing ⟨id, op, g⟩ left) := by
  refine ⟨fun n => ?_, fun n => ?_, fun _ h => h⟩
  · simp only [Phase.stepsLeft, List.length_cons]
    omega
  · cases s <;> rfl

/-- A worker that goes from `handing` back to `issuing` has done with that operation. -/
theorem getsOn_hand (t : Token) (left : List Operation) :
    GetsOn s (.handing t left) (.issuing t.writeId left) := by
  refine ⟨fun n => ?_, fun n => ?_, fun _ h => h⟩
  · simp only [Phase.stepsLeft]
    omega
  · cases s <;> rfl

/-- A worker with a `next` stage passes the write on and comes to its end there; the last one has
the rest of its queue to do. -/
theorem getsOn_join {first : Bool} (id : WriteId) :
    GetsOn s (if first then .issuing id [] else .awaitingJoin id)
      (if s.next = none then .notifying id else .pushing id) := by
  refine ⟨fun n => ?_, fun n => ?_, fun id' h => ?_⟩
  · cases s <;> cases first <;>
      simp [Phase.stepsLeft, Stage.onwardLeft, Stage.next, Nat.add_comm]
  · cases s <;> cases first <;> simp [Phase.takesLeft, Stage.next]
  · cases s <;> cases first <;> exact h

theorem getsOn_notify (id : WriteId) : GetsOn s (.notifying id) (.marking id) := by
  refine ⟨fun n => ?_, fun n => ?_, fun _ h => h⟩
  · simp [Phase.stepsLeft]
  · cases s <;> rfl

theorem getsOn_mark (hlast : s.next = none) (id : WriteId) : GetsOn s (.marking id) .popping := by
  refine ⟨fun n => ?_, fun n => ?_, nofun⟩
  · simp [Phase.stepsLeft]
  · simp [Phase.takesLeft, hlast]

/-- The phase of a worker after its own `setPhase`. -/
theorem phase_setPhase (j : Journal) (s : Stage) (p : Phase) :
    ((j.setPhase s p).workers.get s).phase = p := by
  rw [worker_setPhase, if_pos rfl]

/-- What a worker of an aborted journal does is one of the cases of `OwnStep`. -/
theorem Change.ownStep (h : Change j a step) (hrun : Run c as j es)
    (habort : j.closing.hasAborted = true) (ha : a.worker? = some s) : OwnStep j s step.1 := by
  -- Most steps leave the queues as they are.
  have hgoes {j' : Journal} {p p' : Phase} (hqueues : j'.queues = j.queues)
      (hphase : (j.workers.get s).phase = p) (hphase' : (j'.workers.get s).phase = p')
      (hgets : GetsOn s p p') : OwnStep j s j' := by
    refine .goesOn (queue_congr hqueues s) (owedBy_congr hqueues _) ?_
    rw [hphase, hphase']
    exact hgets
  cases h with
  | @deliver b u m hdeliver =>
    obtain ⟨k⟩ | ⟨k⟩ | _ := b
    · obtain rfl := Option.some.inj ha
      refine .sends ?_ rfl ?_
      · exact queue_setQueue_eq (fun q => q) (Queue.Monitor.deliver_queue hdeliver) k
      · simpa using owedBy_deliver (b := .worker k) hdeliver
    · cases ha
    · cases ha
  | @pop u first m r hphase hvisit =>
    obtain rfl := Option.some.inj ha
    have hclosed := hrun.closed_of_hasAborted habort u
    have hset : (j.setQueue u m).queue u = m.queue := by rw [queue_setQueue, if_pos rfl]
    rcases hvisit.pop_of_closed hclosed with
      ⟨v, rest, rfl, hitems, hqueue, howed⟩ | ⟨rfl, -, hqueue, howed⟩
    · refine .takes hitems (hset.trans hqueue) ?_ (phase_setPhase ..) ?_
      · cases first
        · exact .inr hphase
        · exact .inl hphase
      · exact owedBy_setQueue 0 1 (by simp [howed])
    · refine .goesOn (hset.trans hqueue) (owedBy_setQueue 0 0 (by rw [howed])) ?_
      rw [hphase]
      exact getsOn_of_isOver (by cases first <;> rfl) (congrArg Phase.isOver (phase_setPhase ..))
  | record hphase =>
    obtain rfl := Option.some.inj ha
    unfold Journal.record
    split
    · exact hgoes rfl hphase (phase_setPhase ..) (getsOn_record ..)
    · exact hgoes rfl hphase (phase_setPhase ..) (getsOn_of_isOver rfl rfl)
  | hand hphase =>
    obtain rfl := Option.some.inj ha
    exact hgoes rfl hphase (phase_setPhase ..) (getsOn_hand ..)
  | @join u id first m r hphase hvisit =>
    obtain rfl := Option.some.inj ha
    have halive : (if first then Phase.issuing id [] else .awaitingJoin id).isOver = false := by
      cases first <;> rfl
    obtain ⟨-, ⟨slot, rfl, -⟩ | ⟨rfl, -⟩ | ⟨f, rfl, -⟩ | ⟨rfl, hopen⟩⟩ := hvisit.join_cases
    · refine hgoes (sameMonitors_afterJoin ..).queues_eq hphase ?_ (getsOn_join id)
      cases u <;> rfl
    · exact hgoes rfl hphase (phase_setPhase ..) (getsOn_of_isOver halive rfl)
    · exact hgoes rfl hphase (phase_setPhase ..) (getsOn_of_isOver halive rfl)
    · -- A join is refused at a table that is shut down.
      rw [hrun.orderly.shutDown.trans habort] at hopen
      cases hopen
  | @push u t id first m r hnext hphase hvisit =>
    obtain rfl := Option.some.inj ha
    obtain ⟨rfl, hqueue, howed⟩ := hvisit.push_of_closed (hrun.closed_of_hasAborted habort t)
    refine .goesOn ?_ (owedBy_setQueue 0 0 (by rw [howed])) ?_
    · exact queue_setQueue_eq (fun q => q) hqueue u
    · rw [hphase]
      exact getsOn_of_isOver (by cases first <;> rfl) (congrArg Phase.isOver (phase_setPhase ..))
  | notify hphase =>
    obtain rfl := Option.some.inj ha
    exact hgoes rfl hphase (phase_setPhase ..) (getsOn_notify _)
  | @mark u id hphase =>
    obtain rfl := Option.some.inj ha
    have hlast : u.next = none := by
      have hsuits := hrun.pipeline.suited u
      rw [workers_pipeline, hphase] at hsuits
      exact hsuits
    unfold Journal.mark
    split
    · exact hgoes rfl hphase (phase_setPhase ..) (getsOn_mark hlast id)
    · exact hgoes rfl hphase (phase_setPhase ..) (getsOn_of_isOver rfl rfl)
  | clientPanic hphase =>
    obtain rfl := Option.some.inj ha
    exact hgoes rfl hphase (phase_setPhase ..) (getsOn_of_isOver rfl rfl)
  | devicePanic hphase =>
    obtain rfl := Option.some.inj ha
    exact hgoes rfl hphase (phase_setPhase ..) (getsOn_of_isOver rfl rfl)
  | acquire | submit | drain | close | abort | gone | arrive | await | complete | drop | report
  | shutDown | shutDownAgain => cases ha

/-- A round (`roundsLeft`) comes to taking a write, passing it on and sending the notification. -/
private theorem round_le (s : Stage) (queued : Nat) :
    2 * s.operations.length + 1 + s.onwardLeft queued + 2 ≤ s.roundsLeft (queued + 1) := by
  cases hnext : s.next <;>
    simp only [Stage.onwardLeft, Stage.roundsLeft, hnext, Nat.mul_succ] <;> omega

/-- A step of its own is one less in the `stepsLeft` of a worker. -/
theorem OwnStep.windsUp (h : OwnStep j s j') (hrun : Run c as j es) (ha : a.worker? = some s)
    (hstep : j.step a = some (j', es')) : WindsUp j [a] j' es' s := by
  have hcount : [a].countP (·.worker? = some s) = 1 := by simp [ha]
  cases h with
  | sends hqueue hphase howed =>
    refine hrun.windsUp_of_queue_eq hstep hqueue ?_ ?_ ?_
    · rw [hcount, stepsLeft, stepsLeft, hqueue, hphase]
      omega
    · rw [takesLeft, takesLeft, hqueue, hphase]
    · rw [heldBy, heldBy, hphase]
      exact fun id hid => hid
  -- The worker gets on with the write in its hands.
  | goesOn hqueue howed hgets =>
    refine hrun.windsUp_of_queue_eq hstep hqueue ?_ ?_ fun id hid => ?_
    · rw [hcount, stepsLeft, stepsLeft, hqueue, howed]
      have := hgets.steps (j.queue s).length
      omega
    · rw [takesLeft, takesLeft, hqueue]
      exact hgets.takes _
    · rw [heldBy, Option.mem_toList] at hid ⊢
      exact hgets.held id hid
  -- It takes the next write, which costs at most one round.
  | @takes id rest hitems hqueue hbefore hphase howed =>
    have hlength : (j.queue s).length = (j'.queue s).length + 1 := by
      rw [Queue.length, Queue.length, hitems, hqueue, List.length_cons]
    constructor
    case steps =>
      have hround := round_le s (j'.queue s).length
      rw [hcount, stepsLeft, stepsLeft, howed, hphase, hlength]
      rcases hbefore with hbefore | hbefore <;> rw [hbefore] <;>
        simp only [Phase.stepsLeft] <;> omega
    case pushed_eq => rw [hqueue]
    case handled =>
      refine ⟨[id], by rw [hitems, hqueue]; rfl, by rw [hqueue]; rfl, ?_, ?_,
        fun e he id' hid => ?_⟩
      · rw [takesLeft, takesLeft, hphase, hlength]
        rcases hbefore with hbefore | hbefore <;> rw [hbefore] <;> cases s <;>
          simp [Phase.takesLeft, Stage.next, Nat.add_comm]
      · intro id' hid
        rw [heldBy, hphase] at hid
        exact List.mem_append_right _ hid
      · exact List.mem_append_left _ (hrun.heldBy_of_handles hstep he hid)

/-- What a step of an aborted journal does to a stage is to wind it up (`WindsUp`). -/
theorem Run.step_windsUp (hrun : Run c as j es) (habort : j.closing.hasAborted = true)
    (hstep : j.step a = some (j', es')) (s : Stage) : WindsUp j [a] j' es' s := by
  have hchange := change_of_step hrun.attended hstep
  by_cases ha : a.worker? = some s
  · exact (hchange.ownStep hrun habort ha).windsUp hrun ha hstep
  · have hworker := hchange.worker_eq (.inr ha)
    have hqueue := hchange.queue_eq hrun habort (.inr ha)
    have howed : j'.owedBy (.worker s) ≤ j.owedBy (.worker s) := by
      apply hchange.owedBy_le
      rintro rfl
      exact ha rfl
    refine hrun.windsUp_of_queue_eq hstep hqueue ?_ ?_ ?_
    · rw [stepsLeft, stepsLeft, hqueue, hworker]
      simp only [List.countP_singleton, ha, decide_false, Bool.false_eq_true, if_false]
      omega
    · rw [takesLeft, takesLeft, hqueue, hworker]
    · rw [heldBy, heldBy, hworker]
      exact fun id hid => hid

/-- What any number of steps of an aborted journal does to a stage is to wind it up: by induction on
the actions, from `Run.step_windsUp`. -/
theorem Run.windsUp (hrun : Run c as j es) (habort : j.closing.hasAborted = true)
    (hmore : j.run? as' = some (j', es')) (s : Stage) : WindsUp j as' j' es' s := by
  induction as' generalizing as j es es' with
  | nil =>
    obtain ⟨rfl, rfl⟩ := Prod.mk.inj (Option.some.inj hmore)
    exact WindsUp.refl j s
  | cons a as' ih =>
    obtain ⟨j₁, es₁, es₂, hstep, htail, rfl⟩ := run?_cons_some hmore
    have habort₁ := (change_of_step hrun.attended hstep).hasAborted_mono habort
    exact (hrun.step_windsUp habort hstep s).trans (ih (hrun.step hstep) habort₁ htail)

end Journal

end WriteAhead
