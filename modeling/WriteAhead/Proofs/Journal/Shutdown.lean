import WriteAhead.Proofs.Journal.Winding

/-!
# A shutdown comes to its end

A shutdown goes through a fixed number of critical sections, and it waits for nothing but the end of
a worker. It waits for that only after it has shut the table down, and then a worker that has not
come to its end can go on and has a bounded number of steps left. So the shutdown returns, however
its steps, those of the workers, of the device and of whoever reports completions are interleaved.

## Key results

- `Change.closerStepsLeft_le`: the steps that a shutdown has left
- `Run.shutdown_returns`: a shutdown and all workers come to their end
-/

namespace WriteAhead

/-- How many steps a shutdown takes from a place to its end: for each queue one that closes it and
two that send the notifications, one that shuts the table down, and one for each worker. -/
def Closing.stepsLeft : Closing → Nat
  | .open | .done => 0
  | .closing s => 3 * (Stage.all.length - s.index) + 1 + Stage.all.length
  | .aborting => 1 + Stage.all.length
  | .joining s => Stage.all.length - s.index

namespace Journal

variable {c : Config} {as as' : List Action} {j j' : Journal} {es es' : List Event} {a : Action}
  {s t : Stage} {step : Step}

/-- How many steps the shutdown of a journal has left at most. -/
def closerStepsLeft (j : Journal) : Nat := j.closing.stepsLeft + j.owedBy .closer

/-! ## The steps of the shutdown -/

/-- A step of its own is one less that a shutdown has left: `closerStepsLeft` falls. -/
theorem Change.closerStepsLeft_lt (h : Change j (.act .closer) step) :
    step.1.closerStepsLeft < j.closerStepsLeft := by
  unfold closerStepsLeft
  cases h with
  | @deliver b s m hdeliver =>
    have howed := owedBy_deliver (b := .closer) hdeliver
    rw [if_pos rfl] at howed
    show j.closing.stepsLeft + (j.setQueue s m).owedBy .closer < _
    omega
  -- Closing owes two broadcasts, which the three steps of the stage allow for.
  | @close s closing hclosing hnot hnext =>
    have howed : (j.setQueue s ((j.queues.get s).close .closer)).owedBy .closer =
        j.owedBy .closer + 2 := by
      refine owedBy_setQueue 0 2 ?_
      simp [Queue.Monitor.close, Queue.Monitor.owe]
    have hplace : closing.stepsLeft + 3 = (Closing.closing s).stepsLeft := by
      rw [hnext]
      cases s <;> rfl
    rw [hclosing, ← hplace]
    show closing.stepsLeft + (j.setQueue s _).owedBy .closer < _
    omega
  | abort hclosing =>
    rw [hclosing]
    show (Closing.joining .metadata).stepsLeft + j.owedBy .closer < _
    exact Nat.add_lt_add_right (by decide) _
  | @gone s closing es hclosing hnot hes hover hnext =>
    have hplace : closing.stepsLeft + 1 = (Closing.joining s).stepsLeft := by
      rw [hnext]
      cases s <;> rfl
    rw [hclosing, ← hplace]
    show closing.stepsLeft + j.owedBy .closer < _
    omega

/-- Once it has begun, nobody else's step adds to the `closerStepsLeft`. -/
theorem Change.closerStepsLeft_le (h : Change j a step) (hbegun : j.closing ≠ .open) :
    [a].countP (· = .act .closer) + step.1.closerStepsLeft ≤ j.closerStepsLeft ∧
      step.1.closing ≠ .open := by
  by_cases ha : a = .act .closer
  · subst ha
    refine ⟨?_, ?_⟩
    · have := h.closerStepsLeft_lt
      simp only [List.countP_singleton, decide_true, if_true]
      omega
    · cases h with
      | deliver => exact hbegun
      | close _ hnot | gone _ hnot => exact hnot
      | abort => exact nofun
  · -- Nobody else turns the shutdown on, or comes to owe something as the closer.
    have hclosing : step.1.closing = j.closing := by
      by_cases hdown : a = .shutDown
      · subst hdown
        cases h with
        | shutDown hopen => exact absurd hopen hbegun
        | shutDownAgain => rfl
      · exact (h.steady ha hdown).closing_eq
    have howed := h.owedBy_le ha
    refine ⟨?_, hclosing ▸ hbegun⟩
    simp only [List.countP_singleton, ha, decide_false, Bool.false_eq_true, if_false,
      closerStepsLeft, hclosing]
    omega

/-- While a shutdown is not `done` it can go on, or it waits for a worker that is not over. -/
theorem closer_unblocked (hbegun : j.closing ≠ .open) (hbusy : j.closing ≠ .done) :
    (j.step (.act .closer)).isSome = true ∨
      ∃ s, j.closing = .joining s ∧ (j.workers.get s).phase.isOver = false := by
  show (j.actorStep .closer).isSome = true ∨ _
  unfold actorStep
  split
  · exact .inl rfl
  · show j.closerStep.isSome = true ∨ _
    unfold closerStep
    cases hclosing : j.closing with
    | «open» => exact absurd hclosing hbegun
    | done => exact absurd hclosing hbusy
    | closing | aborting => exact .inl rfl
    | joining s =>
      cases hphase : (j.workers.get s).phase with
      | stopped | crashed =>
        left
        simp [hphase]
      | _ => exact .inr ⟨s, rfl, by rw [hphase]; rfl⟩

/-- A shutdown that has no steps left has returned: `closing` is `done`. -/
theorem done_of_stepsLeft (hbegun : j.closing ≠ .open) (h : j.closerStepsLeft = 0) :
    j.closing = .done := by
  have hplace : j.closing.stepsLeft = 0 := (Nat.add_eq_zero_iff.mp h).1
  cases hclosing : j.closing with
  | «open» => exact absurd hclosing hbegun
  | done => rfl
  | closing s | aborting | joining s =>
    rw [hclosing] at hplace
    revert hplace
    first | (cases s <;> decide) | decide

/-- A worker with no `stepsLeft` has come to its end. -/
theorem over_of_stepsLeft (h : j.stepsLeft s = 0) : (j.workers.get s).phase.isOver = true := by
  have hphase : (j.workers.get s).phase.stepsLeft s (j.queue s).length = 0 :=
    (Nat.add_eq_zero_iff.mp h).2
  cases hp : (j.workers.get s).phase with
  | stopped | crashed => rfl
  | _ =>
    rw [hp] at hphase
    cases s <;> simp [Phase.stepsLeft, Stage.roundsLeft, Stage.next] at hphase

/-- Once it has begun, a shutdown has fewer `closerStepsLeft` with each step that it takes, whatever
comes in between. -/
theorem Run.closerStepsLeft_le (hrun : Run c as j es) (hbegun : j.closing ≠ .open)
    (hmore : j.run? as' = some (j', es')) :
    as'.countP (· = .act .closer) + j'.closerStepsLeft ≤ j.closerStepsLeft ∧
      j'.closing ≠ .open := by
  induction as' generalizing as j es es' with
  | nil =>
    obtain ⟨rfl, rfl⟩ := Prod.mk.inj (Option.some.inj hmore)
    exact ⟨by simp, hbegun⟩
  | cons a as' ih =>
    obtain ⟨j₁, es₁, es₂, hstep, htail, rfl⟩ := run?_cons_some hmore
    obtain ⟨hfirst, hbegun₁⟩ :
        [a].countP (· = .act .closer) + j₁.closerStepsLeft ≤ j.closerStepsLeft ∧
          j₁.closing ≠ .open :=
      (change_of_step hrun.attended hstep).closerStepsLeft_le hbegun
    obtain ⟨hothers, hbegun'⟩ := ih (hrun.step hstep) hbegun₁ htail
    refine ⟨?_, hbegun'⟩
    rw [← List.singleton_append, List.countP_append]
    omega

/-- Who is `asleep` after a shutdown has come to the workers is none of them. -/
theorem Run.worker_awake (hrun : Run c as j es) (habort : j.closing.hasAborted = true) (s : Stage) :
    (∀ t, ∀ x ∈ (j.queues.get t).waiters.asleep, x.1 ≠ .worker s) ∧
      ∀ x ∈ j.table.waiters.asleep, x.1 ≠ .worker s := by
  constructor
  · intro t x hx
    rw [hrun.asleep_queue habort t] at hx
    exact nomatch hx
  · rintro ⟨b, want⟩ hx rfl
    -- It would sleep until nothing is in use, but a worker waits for joins only.
    obtain rfl := hrun.asleep_table habort _ hx
    have hwant := (hrun.attended.table.mem_iff _ _).mp (List.mem_append_left _ hx)
    rw [tableWant?] at hwant
    cases hphase : (j.workers.get s).phase <;> rw [hphase] at hwant <;> cases hwant

/-- A worker with a next stage has a write or can take one (`takesLeft`), and not both. -/
theorem held_add_takesLeft (hnext : s.next ≠ none) : (j.heldBy s).length + j.takesLeft s ≤ 1 := by
  obtain ⟨t, ht⟩ := Option.ne_none_iff_exists'.mp hnext
  rw [heldBy, takesLeft]
  cases (j.workers.get s).phase <;> simp [Phase.takesLeft, Phase.held?, ht]

/-! ## The end of a shutdown -/

/-- A second `shutDown` comes only after the first and does nothing. -/
theorem step_shutDown (hbegun : j.closing ≠ .open) :
    j.step .shutDown =
      if j.closing = .done ∧ j.isCalled = false then some (j, []) else none := by
  cases hcalled : j.isCalled <;> by_cases hdone : j.closing = .done <;>
    simp [Journal.step, hcalled, hdone, hbegun]

/-- What the actions `as` make of a shutdown that has begun. -/
structure Returns (j : Journal) (as : List Action) (j' : Journal) : Prop where
  /-- The shutdown takes a bounded number of steps. -/
  steps_le : as.countP (· = .act .closer) ≤ j.closerStepsLeft
  /-- After the last of them it has returned. -/
  done : as.countP (· = .act .closer) = j.closerStepsLeft → j'.closing = .done
  /-- Until then it can go on, or it waits for the end of a worker that can. -/
  unblocked : j'.closing ≠ .done → (j'.step (.act .closer)).isSome = true ∨
    ∃ s, j'.closing = .joining s ∧ (j'.step (.act (.worker s))).isSome = true
  /-- Another shutdown changes nothing. -/
  again : j'.step .shutDown =
    if j'.closing = .done ∧ j'.isCalled = false then some (j', []) else none

/-- What the actions `as` make of the worker of a stage when the queues are closed and the table is
shut down. -/
structure Exits (j : Journal) (as : List Action) (j' : Journal) (es : List Event) (s : Stage) :
    Prop where
  /-- The worker takes a bounded number of steps. -/
  steps_le : as.countP (·.worker? = some s) ≤ j.stepsLeft s
  /-- After the last of them it has come to its end. -/
  ended : as.countP (·.worker? = some s) = j.stepsLeft s → (j'.workers.get s).phase.isOver = true
  /-- Until then it can go on. -/
  unblocked : (j'.workers.get s).phase.isOver = false → (j'.step (.act (.worker s))).isSome = true
  /-- It sleeps nowhere. -/
  awake : (∀ t, ∀ x ∈ (j'.queues.get t).waiters.asleep, x.1 ≠ .worker s) ∧
    ∀ x ∈ j'.table.waiters.asleep, x.1 ≠ .worker s
  /-- Nobody pushes. -/
  pushed_eq : (j'.queue s).pushed = (j.queue s).pushed
  /-- It does nothing but for the write that it has and those that it takes from its queue. With a
  next stage it does so for one write at most. -/
  handles : ∃ taken, (j.queue s).items = taken ++ (j'.queue s).items ∧
    (s.next ≠ none → (j.heldBy s ++ taken).length ≤ 1) ∧
    ∀ e ∈ es, ∀ id, e.handles? = some (s, id) → id ∈ j.heldBy s ++ taken

/-- Once a shutdown has come to the workers, each comes to its end within `stepsLeft` steps of its
own. -/
theorem Run.exits (hrun : Run c as j es) (habort : j.closing.hasAborted = true)
    (hmore : j.run? as' = some (j', es')) (s : Stage) : Exits j as' j' es' s := by
  have hrun' := hrun.append hmore
  have habort' := hrun.hasAborted_mono habort hmore
  have hwinds := hrun.windsUp habort hmore s
  obtain ⟨taken, hitems, -, htakes, -, hhandles⟩ := hwinds.handled
  constructor
  case steps_le => exact Nat.le_of_add_right_le hwinds.steps
  case ended =>
    intro hcount
    have := hwinds.steps
    exact over_of_stepsLeft (by omega)
  case unblocked => exact hrun'.worker_unblocked habort'
  case awake => exact hrun'.worker_awake habort' s
  case pushed_eq => exact hwinds.pushed_eq
  case handles =>
    refine ⟨taken, hitems, fun hnext => ?_, hhandles⟩
    have := held_add_takesLeft (j := j) hnext
    rw [List.length_append]
    omega

/-- A shutdown returns and all workers come to their end, whatever else happens in the meantime.
From its beginning the shutdown has a bounded number of steps left, and it waits only for workers
that can go on (`Returns`). Once it has closed the queues and shut the table down, each worker has a
bounded number of steps left and is not blocked any more, nothing is pushed, a worker with a next
stage handles at most one more write and the last one those that it has or that are queued
(`Exits`). -/
theorem Run.shutdown_returns (hrun : Run c as j es) (hbegun : j.closing ≠ .open)
    (hmore : j.run? as' = some (j', es')) :
    Returns j as' j' ∧ (j.closing.hasAborted = true → ∀ s, Exits j as' j' es' s) := by
  obtain ⟨hsteps, hbegun'⟩ := hrun.closerStepsLeft_le hbegun hmore
  refine ⟨?_, fun habort s => hrun.exits habort hmore s⟩
  constructor
  case steps_le => exact Nat.le_of_add_right_le hsteps
  case done =>
    intro hcount
    exact done_of_stepsLeft hbegun' (by omega)
  case unblocked =>
    intro hbusy
    refine (closer_unblocked hbegun' hbusy).imp_right fun ⟨s, hjoining, halive⟩ => ?_
    -- The workers are waited for after the table is shut down.
    have habort' : j'.closing.hasAborted = true := by rw [hjoining]; rfl
    exact ⟨s, hjoining, (hrun.append hmore).worker_unblocked habort' halive⟩
  case again => exact step_shutDown hbegun'

/-- A shutdown comes to the workers while the first one waits for its join and a write is queued. -/
def interruption : List Action :=
  submission 0 0 ++ (passage 0 1 .metadata).take 13 ++ [.act (.worker .metadata)] ++
    submission 1 1 ++ [.act (.worker .commit), .act (.worker .checkpoint), .shutDown] ++
    List.replicate 10 (.act .closer)

/-- The join holds after all, and the workers come to their end one after the other. -/
def conclusion : List Action :=
  [.complete ⟨0, .journalInode, 1⟩, .act (.worker .metadata), .act (.worker .metadata)] ++
    [.act .closer, .act (.worker .commit), .act .closer, .act (.worker .checkpoint), .act .closer]

/-- In `interruption` the first worker passes its join and finds the next queue closed. -/
theorem shutdown_returns_of_interruption :
    ∃ j es j' es', Run { bufferSize := 1, maxRequests := 2 } interruption j es ∧
      j.closing.hasAborted = true ∧ j.heldBy .metadata = [0] ∧
      (j.queue .metadata).items = [1] ∧ j.run? conclusion = some (j', es') ∧
      j'.closing = .done ∧ Returns j conclusion j' ∧
      ∀ s, Exits j conclusion j' es' s := by
  have hend : ((trace? { bufferSize := 1, maxRequests := 2 } interruption).bind fun r =>
      (r.1.run? conclusion).map fun r' =>
        (r.1.closing, r.1.heldBy .metadata, (r.1.queue .metadata).items, r'.1.closing)) =
      some (.joining .metadata, [0], [1], .done) := by
    decide +kernel
  obtain ⟨⟨j, es⟩, htrace, heq⟩ := Option.bind_eq_some_iff.mp hend
  obtain ⟨⟨j', es'⟩, hmore, heq⟩ := Option.map_eq_some_iff.mp heq
  simp only [Prod.mk.injEq] at heq
  obtain ⟨hclosing, hheld, hitems, hdone⟩ := heq
  have hrun := Run.of_trace? htrace
  have habort : j.closing.hasAborted = true := by rw [hclosing]; rfl
  obtain ⟨hreturns, hexits⟩ :=
    hrun.shutdown_returns (Closing.ne_open_of_hasAborted habort) hmore
  exact ⟨j, es, j', es', hrun, habort, hheld, hitems, hmore, hdone, hreturns, hexits habort⟩

end Journal

end WriteAhead
