import WriteAhead.Proofs.Batch.Effort
import WriteAhead.Proofs.Batch.Progress

/-!
# A batch checkpoints every write

However the threads of a batch go on and however long its operations take, it comes to its end after
a bounded number of steps, and there the client has been told of every write in order and each stage
has advanced all of them. So the order in which `next` tries the threads leads there as well.

## Key results

- `Run.step_after_wait`: until its end a batch can go on, at once or after enough time
- `run_eq`: running a batch to its end is a run that gets there
- `checkpoints`: what a batch comes to
-/

namespace WriteAhead.Batch

variable {p : Plan} {as : List Action} {b b' : Batch} {log : List Event}

/-- Until it has `ended` a batch can go on, at once or after enough time. -/
theorem Run.step_after_wait (h : Run p as b log) (hbusy : b.point ≠ .ended none) :
    ∃ t, ∀ instant, t ≤ instant → ∃ b', b.step (.pass instant) = some (b', []) ∧
      ∃ a ∈ b'.moves, (b'.step a).isSome = true := by
  -- From `t` on the earliest deadline is over, if there is one.
  obtain ⟨t, hnow, hearliest⟩ : ∃ t, b.simulation.now ≤ t ∧
      ∀ d, b.simulation.device.timer?.bind (·.earliest?) = some d → d ≤ t := by
    cases b.simulation.device.timer?.bind (·.earliest?) with
    | none => exact ⟨_, Nat.le_refl _, by simp⟩
    | some d =>
      refine ⟨max b.simulation.now d, Nat.le_max_left .., ?_⟩
      rintro _ ⟨⟩
      exact Nat.le_max_right ..
  refine ⟨t, fun instant hinstant => ?_⟩
  let b' : Batch := { b with simulation.now := instant }
  have hstep : b.step (.pass instant) = some (b', []) := by
    show b.world (.pass instant) = _
    rw [world, Simulation.step, if_pos (Nat.le_trans hnow hinstant)]
    rfl
  have hwait : b'.simulation.nextInstant? = none := by
    rw [Simulation.nextInstant?, Option.filter_eq_none_iff]
    intro d hd
    have hle : d ≤ instant := Nat.le_trans (hearliest d hd) hinstant
    simpa using hle
  exact ⟨b', hstep, (h.step hstep).unblocked hbusy hwait⟩

/-! ## One way to the end -/

/-- What comes next is a step of the first that can go on (`moves`), or a wait for the timer. -/
theorem next_eq_some {es : List (Device.Instant × Event)} (h : b.next = some (b', es)) :
    (∃ a ∈ b.moves, b.step a = some (b', es.map Prod.snd)) ∨
      ∃ t, b.simulation.nextInstant? = some t ∧ b.step (.pass t) = some (b', es.map Prod.snd) := by
  obtain ⟨⟨b₁, es₁⟩, hstep, heq⟩ := Option.map_eq_some_iff.mp h
  obtain ⟨rfl, rfl⟩ := Prod.mk.inj heq
  have hes : (es₁.map (b.simulation.now, ·)).map Prod.snd = es₁ := by simp [Function.comp_def]
  rw [hes]
  split at hstep
  · rename_i hfirst
    obtain rfl := Option.some.inj hstep
    obtain ⟨a, ha, hstep⟩ := List.exists_of_findSome?_eq_some hfirst
    exact .inl ⟨a, ha, hstep⟩
  · obtain ⟨t, ht, hstep⟩ := Option.bind_eq_some_iff.mp hstep
    exact .inr ⟨t, ht, hstep⟩

theorem isPass_of_mem_moves {a : Action} (h : a ∈ b.moves) : a.isPass = false := by
  simp only [moves, List.mem_append, List.mem_map, List.mem_cons] at h
  rcases h with ((⟨_, -, rfl⟩ | ⟨_, -, rfl⟩) | ⟨_, -, rfl⟩) | rfl | rfl | rfl | h <;>
    first | rfl | cases h

/-- Each step to the end leaves less `effort`. -/
theorem Run.next (h : Run p as b log) {es : List (Device.Instant × Event)}
    (hnext : b.next = some (b', es)) :
    b'.effort < b.effort ∧ ∃ a, Run p (as ++ [a]) b' (log ++ es.map Prod.snd) := by
  rcases next_eq_some hnext with ⟨a, ha, hstep⟩ | ⟨t, ht, hstep⟩
  · have hlowers := h.effort_step hstep
    rw [isPass_of_mem_moves ha] at hlowers
    exact ⟨hlowers, a, h.step hstep⟩
  · obtain ⟨hpass, hlowers⟩ := Simulation.effort_wait ht
    have hworld : b.step (.pass t) = some ({ b with simulation.now := t }, []) := by
      show b.world (.pass t) = _
      rw [world, hpass]
      rfl
    obtain ⟨rfl, -⟩ := Prod.mk.inj (Option.some.inj (hworld.symm.trans hstep))
    exact ⟨Nat.add_lt_add_left hlowers _, _, h.step hstep⟩

/-- Something comes `next` until the end, so where nothing does the batch is over. -/
theorem Run.point_of_next (h : Run p as b log) (hnext : b.next = none) : b.point = .ended none := by
  by_contra hbusy
  have hnone := Option.map_eq_none_iff.mp hnext
  split at hnone
  · exact nomatch hnone
  · rename_i hmoves
    cases hwait : b.simulation.nextInstant? with
    | none =>
      obtain ⟨a, ha, hsome⟩ := h.unblocked hbusy hwait
      rw [List.findSome?_eq_none_iff.mp hmoves a ha] at hsome
      exact nomatch hsome
    | some t =>
      rw [hwait, Option.bind_some] at hnone
      have hpass := Option.map_eq_none_iff.mp hnone
      rw [(Simulation.effort_wait hwait).1] at hpass
      exact nomatch hpass

/-! ## The start -/

/-- Whether a batch can start is a matter of its configuration: `Config.fault?` says why not. -/
theorem start_eq (p : Plan) : start p = match p.config.fault? with
    | some f => .error (.invalidConfig f.message)
    | none => .ok ({ plan := p, simulation := { journal := .create p.config, device := p.device } },
        [.workerStarted .metadata, .workerStarted .commit, .workerStarted .checkpoint,
          .started p.maxRequests p.bufferSize].map fun e => .simulation (.journal e)) := by
  rw [start, Journal.start, Config.check]
  cases p.config.fault? <;> rfl

/-- A plan with a `fault?`, such as one without room in the queues or without slots, fails before it
does anything. -/
theorem run_of_fault {f : Config.Fault} (h : p.config.fault? = some f) :
    run p = ([], some (.start (.invalidConfig f.message))) ∧ ∀ as b log, ¬ Run p as b log := by
  have hstart : start p = .error (.invalidConfig f.message) := by rw [start_eq, h]
  refine ⟨by rw [run, hstart], fun as b log hrun => ?_⟩
  induction hrun with
  | start hok => exact nomatch hstart.symm.trans hok
  | step _ _ ih => exact ih

/-- Running a batch to its end is a run that gets there: `run` takes what comes `next` as long as
the effort lasts. -/
theorem run_eq (h : p.config.fault? = none) :
    ∃ as b, Run p as b ((run p).1.map Prod.snd) ∧ b.point = .ended none ∧ (run p).2 = none := by
  obtain ⟨⟨b, events⟩, hstart⟩ : ∃ step, start p = .ok step := ⟨_, by rw [start_eq, h]⟩
  have hrun : Run p [] b events := .start hstart
  have hstarted : ∃ as, Run p as b ((events.map (0, ·)).map Prod.snd) :=
    ⟨[], by simpa [Function.comp_def] using hrun⟩
  -- What is reached is reached by a run, and nothing comes next there.
  obtain ⟨as, hend⟩ := runToRest_induction
    (motive := fun b yields => ∃ as, Run p as b (yields.map Prod.snd))
    (fun b yields b' es ⟨as, hb⟩ hnext => by
      obtain ⟨-, a, hb'⟩ := hb.next hnext
      exact ⟨_, List.map_append ▸ hb'⟩)
    (workLeft p) hstarted
  have hrest := next_runToRest_eq_none (p := fun b => ∃ as log, Run p as b log)
    (fun b b' es ⟨as, log, hb⟩ hnext => by
      obtain ⟨hlowers, a, hb'⟩ := hb.next hnext
      exact ⟨⟨_, _, hb'⟩, hlowers⟩)
    ⟨[], events, hrun⟩ (Nat.le_of_add_left_le hrun.countP_steps_le)
  have hpoint := hend.point_of_next hrest
  refine ⟨as, _, ?_, hpoint, ?_⟩
  · rw [run, hstart]
    exact hend
  · rw [run, hstart]
    simp only [hpoint]

/-! ## What a batch comes to -/

/-- What the log of a batch that succeeds says. -/
structure Succeeds (p : Plan) (log : List Event) : Prop where
  /-- The client has been told of every write once, in order. -/
  notified : notified log = p.ids p.writes
  /-- Each stage has advanced every write. -/
  processed : processed log = Stage.all.map (·, p.writes)

/-- What the actions `as` make of a batch, in whatever order its threads went on. -/
structure Leads (p : Plan) (as : List Action) (b : Batch) (log : List Event) : Prop where
  /-- It took a bounded number of steps, and some time. -/
  steps_le : as.countP (!·.isPass) ≤ workLeft p
  /-- The client has been told of the first writes. -/
  isPrefix : notified log <+: p.ids p.writes
  /-- Until its end it can go on, at once or when enough time has passed, and however much. -/
  unblocked : (∀ f, b.point ≠ .ended f) → ∃ t, ∀ instant, t ≤ instant →
    ∃ b', b.step (.pass instant) = some (b', []) ∧ ∃ a ∈ b'.moves, (b'.step a).isSome = true
  /-- At its end nothing has failed. -/
  ended : ∀ f, b.point = .ended f → f = none ∧ Succeeds p log

/-- A run leads to the end of a batch that succeeds (`Leads`). -/
theorem Run.leads (h : Run p as b log) : Leads p as b log := by
  refine ⟨Nat.le_of_add_right_le h.countP_steps_le, h.notified_isPrefix,
    fun hbusy => h.step_after_wait (hbusy none), fun f hpoint => ?_⟩
  have hstands := h.stands
  have hprocessed := h.processed_eq
  rw [hpoint] at hstands hprocessed
  cases hstands with
  | ended hcheckpointed =>
    exact ⟨rfl, (notified_eq log).trans hcheckpointed.notified, hprocessed⟩

/-- A batch checkpoints every write. Whatever the number of writes, the sizes and the delays, with
room in the queues and with slots each run of it, in whatever order the threads, the device and the
timer went on, can be continued until it is at its end, which it reaches after a bounded number of
steps. There nothing has failed, the client has been told of every write once and in order, and each
stage has advanced all of them. `run` gets there. Without room or without slots it fails before
anything happens, so no id is ever taken by a number of slots that is zero. -/
theorem checkpoints (p : Plan) :
    (p.bufferSize = 0 ∨ p.maxRequests = 0 → ∃ f, p.config.fault? = some f ∧
      run p = ([], some (.start (.invalidConfig f.message))) ∧ ∀ as b log, ¬ Run p as b log) ∧
    (0 < p.bufferSize → 0 < p.maxRequests → (∀ as b log, Run p as b log → Leads p as b log) ∧
      (run p).2 = none ∧ Succeeds p ((run p).1.map Prod.snd) ∧
      ∃ as b, Run p as b ((run p).1.map Prod.snd) ∧ b.point = .ended none) := by
  have hfault : p.config.fault? = none ↔ 0 < p.bufferSize ∧ 0 < p.maxRequests := by
    rw [Config.fault?_eq_none_iff]
    simp [Plan.config]
  constructor
  · intro hzero
    have hsome : p.config.fault? ≠ none := by
      rw [Ne, hfault]
      omega
    obtain ⟨f, hf⟩ := Option.ne_none_iff_exists'.mp hsome
    exact ⟨f, hf, run_of_fault hf⟩
  · intro hroom hslots
    obtain ⟨as, b, hrun, hpoint, hnone⟩ := run_eq (hfault.mpr ⟨hroom, hslots⟩)
    exact ⟨fun _ _ _ => Run.leads, hnone, (hrun.leads.ended none hpoint).2, as, b, hrun, hpoint⟩

/-- Three writes go through two slots and queues with room for one. Operations take some time, and
the first journal txe more than a whole stage. -/
def crowded : Plan :=
  { writes := 3, bufferSize := 1, maxRequests := 2, latency := ⟨5⟩, slowTxe? := some ⟨100⟩ }

/-- In `crowded` the third write has the slot of the first, and without room there is no batch. -/
theorem checkpoints_of_crowded :
    (∃ as b log, Run crowded as b log ∧ b.point = .ended none ∧ Leads crowded as b log ∧
      notified log = [0, 1, 0] ∧
      processed log = [(.metadata, 3), (.commit, 3), (.checkpoint, 3)]) ∧
    (run crowded).2 = none ∧
    run { crowded with bufferSize := 0 } =
      ([], some (.start (.invalidConfig "buffer_size must be at least 1"))) := by
  obtain ⟨hleads, hnone, ⟨hnotified, hprocessed⟩, as, b, hrun, hpoint⟩ :=
    (checkpoints crowded).2 (by decide) (by decide)
  obtain ⟨f, hf, hfails, -⟩ := (checkpoints { crowded with bufferSize := 0 }).1 (.inl rfl)
  refine ⟨⟨as, b, _, hrun, hpoint, hleads _ _ _ hrun, ?_, hprocessed⟩, hnone, ?_⟩
  · rw [hnotified]
    decide
  · obtain rfl := Option.some.inj (hf.symm.trans (show _ = some .noQueueRoom from rfl))
    exact hfails

end WriteAhead.Batch
