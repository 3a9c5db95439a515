import WriteAhead.Journal.Step

/-!
# Runs of a journal

A run begins with the start of a journal and goes on by any sequence of possible actions: of its
workers and callers, of the device, the client and whoever reports completions. `Run c as j es` says
that the actions `as` lead from the start with configuration `c` to the journal `j`, and that `es`
are all events so far, the oldest first. Since every beginning of a run is a run, what holds at the
end of every run holds at every moment.

The condition variables of a run are those of `Waiters.notifyOne` and `Waiters.notifyAll`: a single
notification wakes whoever has slept longest, and nobody wakes without one. A queue or a table by
itself assumes less: of those who sleep at a queue any may be woken (`Queue.Monitor.Step`), and at a
table a caller may wake without a notification (`Table.Monitor.Action.stir`).

## Key results

- `Run.append`: a run can be continued by further actions
- `Run.of_trace?`, `Run.of_trace?_step`: the actions of a list that are all possible are a run
-/

namespace WriteAhead.Journal

/-- Takes the actions one after the other; none if one of them is not possible. -/
def run? (j : Journal) : List Action → Option Step
  | [] => some (j, [])
  | a :: as =>
    match j.step a with
    | none => none
    | some (j', es) => (j'.run? as).map fun (j'', es') => (j'', es ++ es')

/-- Starts a journal and takes the actions one after the other. -/
def trace? (c : Config) (as : List Action) : Option Step :=
  match Journal.start c with
  | .error _ => none
  | .ok (j, es) => (j.run? as).map fun (j', es') => (j', es ++ es')

/-- The actions `as` lead from the start of a journal to `j`, with the events `es`. -/
inductive Run (c : Config) : List Action → Journal → List Event → Prop where
  /-- A journal starts. -/
  | start {j : Journal} {es : List Event} (hstart : Journal.start c = .ok (j, es)) : Run c [] j es
  /-- One more action is taken. -/
  | step {as : List Action} {j j' : Journal} {es es' : List Event} {a : Action}
      (hrun : Run c as j es) (hstep : j.step a = some (j', es')) :
      Run c (as ++ [a]) j' (es ++ es')

/-- A journal starts if `Config.check` passes its configuration: then it is the one that `create`
makes, with its three workers started. -/
theorem start_eq_ok {c : Config} {j : Journal} {es : List Event}
    (h : Journal.start c = .ok (j, es)) :
    0 < c.bufferSize ∧ 0 < c.maxRequests ∧ j = create c ∧
      es = [.workerStarted .metadata, .workerStarted .commit, .workerStarted .checkpoint,
        .started c.maxRequests c.bufferSize] := by
  unfold Journal.start at h
  cases hc : c.check with
  | error e => rw [hc] at h; exact nomatch h
  | ok u =>
    rw [hc] at h
    obtain ⟨rfl, rfl⟩ := Prod.mk.inj (Except.ok.inj h)
    obtain ⟨hroom, hslots, -⟩ := Config.check_eq_ok_iff.mp hc
    exact ⟨hroom, hslots, rfl, rfl⟩

/-- The first of several actions is taken by `step`, and then the others. -/
theorem run?_cons_some {as : List Action} {a : Action} {j j' : Journal} {es : List Event}
    (h : j.run? (a :: as) = some (j', es)) :
    ∃ j₁ es₁ es₂, j.step a = some (j₁, es₁) ∧ j₁.run? as = some (j', es₂) ∧ es = es₁ ++ es₂ := by
  simp only [run?] at h
  split at h
  · exact nomatch h
  · rename_i j₁ es₁ hstep
    obtain ⟨⟨j₂, es₂⟩, htail, heq⟩ := Option.map_eq_some_iff.mp h
    obtain ⟨rfl, rfl⟩ := Prod.mk.inj heq
    exact ⟨j₁, es₁, es₂, hstep, htail, rfl⟩

/-- A run can be continued by any actions that `run?` takes. -/
theorem Run.append {c : Config} {as as' : List Action} {j j' : Journal} {es es' : List Event}
    (h : Run c as j es) (hmore : j.run? as' = some (j', es')) :
    Run c (as ++ as') j' (es ++ es') := by
  induction as' generalizing as j es es' with
  | nil =>
    obtain ⟨rfl, rfl⟩ := Prod.mk.inj (Option.some.inj hmore)
    simpa using h
  | cons a as' ih =>
    obtain ⟨j₁, es₁, es₂, hstep, htail, rfl⟩ := run?_cons_some hmore
    have hrun := ih (h.step hstep) htail
    rwa [List.append_assoc, List.append_assoc, List.singleton_append] at hrun

/-- A list of actions that are all possible (`trace?`) is a run. -/
theorem Run.of_trace? {c : Config} {as : List Action} {j : Journal} {es : List Event}
    (h : trace? c as = some (j, es)) : Run c as j es := by
  unfold trace? at h
  split at h
  · exact nomatch h
  · rename_i j₀ es₀ hstart
    obtain ⟨⟨j₁, es₁⟩, hrun, heq⟩ := Option.map_eq_some_iff.mp h
    obtain ⟨rfl, rfl⟩ := Prod.mk.inj heq
    simpa using (Run.start hstart).append hrun

/-- A `trace?` with one more action that is possible is a run and a step after it. -/
theorem Run.of_trace?_step {c : Config} {as : List Action} {a : Action} {es' : List Event}
    (h : ((trace? c as).bind fun r => (r.1.step a).map (·.2)) = some es') :
    ∃ j es j', Run c as j es ∧ j.step a = some (j', es') := by
  obtain ⟨⟨j, es⟩, htrace, hnext⟩ := Option.bind_eq_some_iff.mp h
  obtain ⟨⟨j', es''⟩, hstep, rfl⟩ := Option.map_eq_some_iff.mp hnext
  exact ⟨j, es, j', .of_trace? htrace, hstep⟩

/-! ## Undisturbed writes -/

/-- A new caller submits a write that has its slot free and room in the first queue. -/
def submission (k : Nat) (id : WriteId) : List Action :=
  [.submit [id], .act (.caller k), .act (.caller k), .act (.caller k)]

/-- A worker takes a write through its stage, and every token is completed at once. -/
def passage (id : WriteId) (g : Generation) (s : Stage) : List Action :=
  let a := Action.act (.worker s)
  [a, a] ++ s.operations.flatMap (fun op => [a, a, .complete ⟨id, op, g⟩]) ++ [a, a, a]

end WriteAhead.Journal
