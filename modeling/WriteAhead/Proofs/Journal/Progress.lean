import WriteAhead.Proofs.Journal.Stillness

/-!
# A journal that comes to rest has nothing left to do

A journal is at rest when it is still and the device has completed all its tokens. Then no worker
waits for a join, since what the join lacks would have a token. So from the last stage to the first
each worker waits for a write: the queue behind it is empty and has room. Then nobody waits for
room, no write has a place, no slot is in use, and nobody waits for a slot either.

## Key results

- `AtRest.workers_idle`: at rest all workers wait for writes
- `Run.drained_of_atRest`: a journal that nobody keeps from within comes to rest only with
  everything done
-/

namespace WriteAhead.Journal

variable {c : Config} {as : List Action} {j : Journal} {es : List Event} {a : Actor} {s t : Stage}
  {id : WriteId}

/-- Neither a worker nor a caller can go on, and the device has completed all its tokens. -/
structure AtRest (j : Journal) : Prop where
  workers : ∀ s, j.step (.act (.worker s)) = none
  callers : ∀ k, j.step (.act (.caller k)) = none
  completed : j.outstanding = []

namespace AtRest

/-- At rest a journal `IsStill`. -/
theorem isStill (h : j.AtRest) : j.IsStill := ⟨h.workers, h.callers⟩

/-- At rest no worker waits for a join: what the join lacks would have a token, and none is
`outstanding`. -/
theorem ne_awaitingJoin (h : j.AtRest) (hrun : Run c as j es) (hkeeps : j.pipeline.Keeps es)
    (hdropped : ∀ t, .dropped t ∉ es) : (j.workers.get s).phase ≠ .awaitingJoin id := by
  intro hphase
  obtain ⟨t, -, -, hmem | hmem⟩ := h.isStill.awaited hrun hkeeps hphase
  · rw [h.completed] at hmem
    exact nomatch hmem
  · exact hdropped t hmem

section

variable (h : j.AtRest) (hrun : Run c as j es) (hopen : j.closing = .open)
  (hkeeps : j.pipeline.Keeps es) (hdropped : ∀ t, .dropped t ∉ es)

include h hrun hopen hkeeps hdropped

/-- At rest all workers wait for writes (`awaitingItem`), and all queues are empty. -/
theorem workers_idle (s : Stage) :
    (j.workers.get s).phase = .awaitingItem ∧ (j.queue s).items = [] :=
  h.isStill.idle (P := fun _ => True) hrun hopen hkeeps
    (fun _ _ _ => h.ne_awaitingJoin hrun hkeeps hdropped) (fun _ _ _ _ => .inl trivial) s trivial

/-! ## Callers at rest -/

/-- At rest no submitter is on its way from its slot to the first queue (`held?`). -/
theorem held?_eq_none {k : Nat} {caller : Caller} (hcaller : j.callers[k]? = some caller) :
    caller.held? = none := by
  have hstep := (h.isStill.caller k).2
  rw [callerStep, hcaller] at hstep
  cases caller with
  | submitter point left answers =>
    cases point with
    | between | awaitingSlot => rfl
    | admitted id => cases hstep
    | awaitingRoom id =>
      have hfull := h.isStill.full_of_submitter hrun hopen hkeeps hcaller
      have hpos := hrun.bufferSize_pos
      rw [(h.workers_idle hrun hopen hkeeps hdropped .metadata).2, List.length_nil] at hfull
      omega
  | drainer point => rfl

/-- At rest no write has a place in `places`. -/
theorem places_eq_nil : j.pipeline.places = [] := by
  rw [List.eq_nil_iff_forall_not_mem]
  intro place hmem
  rcases Pipeline.places_cases hmem with ⟨id, hadmitted, -⟩ | ⟨s, id, hline, -⟩ | ⟨s, hplace⟩
  · obtain ⟨caller, hcaller, hheld⟩ := List.mem_filterMap.mp hadmitted
    obtain ⟨k, hk⟩ := List.getElem?_of_mem hcaller
    rw [h.held?_eq_none hrun hopen hkeeps hdropped hk] at hheld
    exact nomatch hheld
  · rw [lines_pipeline, (h.workers_idle hrun hopen hkeeps hdropped s).2] at hline
    exact nomatch hline
  · rw [workers_pipeline, (h.workers_idle hrun hopen hkeeps hdropped s).1] at hplace
    exact nomatch hplace

/-- At rest `inFlight` is 0, since every occupant would have a place. -/
theorem inFlight_eq_zero : j.table.table.inFlight = 0 := by
  refine (Table.IsCounted.inFlight_eq_zero_iff hrun.pipeline.isCounted).mpr fun id slot hslot => ?_
  by_contra huse
  obtain ⟨place, hmem, -⟩ := hkeeps.kept.placed id slot hslot (by simpa using huse)
  rw [h.places_eq_nil hrun hopen hkeeps hdropped] at hmem
  exact nomatch hmem

/-- At rest every call is over (`isOver`): what it could wait for is there. -/
theorem isOver {k : Nat} {caller : Caller} (hcaller : j.callers[k]? = some caller) :
    caller.isOver = true := by
  have hflight := h.inFlight_eq_zero hrun hopen hkeeps hdropped
  have hheld := h.held?_eq_none hrun hopen hkeeps hdropped hcaller
  have hlacks {want : Table.Want} (hwant : caller.tableWant? = some want) :
      Table.Monitor.Lacks j.table.table want :=
    h.isStill.lacks hrun (a := .caller k) (by rw [tableWant?, hcaller]; exact hwant)
  have hstep := (h.isStill.caller k).2
  rw [callerStep, hcaller] at hstep
  cases caller with
  | submitter point left answers =>
    cases point with
    | between =>
      cases left with
      | nil => rfl
      | cons id left => cases hstep
    | awaitingSlot id =>
      -- Whoever waits for a slot waits for one in use.
      obtain ⟨slot, hslot, huse⟩ := hlacks rfl
      exact absurd hflight (hrun.inFlight_ne_zero hslot huse)
    | admitted | awaitingRoom => cases hheld
  | drainer point =>
    cases point with
    | entering => cases hstep
    | awaiting => exact absurd hflight (hlacks rfl)
    | returned => rfl

/-- At rest no call is blocked (`isCalled`), so a shutdown could be called. -/
theorem isCalled_eq_false : j.isCalled = false := by
  have howed := h.isStill.owed_eq_nil hrun.watchful hopen
  have howing (a : Actor) : j.isOwing a = false := by
    rw [isOwing_eq_false_iff, deliver?_eq_none_iff]
    intro s x hx
    rw [howed] at hx
    exact nomatch hx
  rw [isCalled, Bool.not_eq_false', List.all_eq_true]
  intro k _
  rw [hasReturned, howing, Bool.not_false, Bool.and_true, Option.all_eq_true]
  exact fun caller hcaller => h.isOver hrun hopen hkeeps hdropped hcaller

end

end AtRest

/-- A journal that was not shut down, is told of completions with tokens only, and whose client and
device neither panic nor drop a token comes to rest only with everything done: nothing is in flight,
all queues are empty, all workers wait for writes, and no call is blocked. Here every call of
`Journal.step` on the device and the client returns at once. -/
theorem Run.drained_of_atRest (hrun : Run c as j es) (hopen : j.closing = .open)
    (hmishap : ∀ a ∈ as, a.isMishap = false) (hreports : ∀ id op, .report id op ∉ as)
    (hrest : j.AtRest) :
    j.table.table.inFlight = 0 ∧ (∀ s, (j.queue s).items = []) ∧
      (∀ s, (j.workers.get s).phase = .awaitingItem) ∧ j.isCalled = false := by
  have hkeeps := hrun.pipeline.keeps hopen
    (fun a ha => Action.isPanic_of_isMishap (hmishap a ha)) hreports
  have hdropped (t : Token) : .dropped t ∉ es := fun hmem =>
    nomatch hmishap _ (hrun.drop_of_dropped hmem)
  exact ⟨hrest.inFlight_eq_zero hrun hopen hkeeps hdropped,
    fun s => (hrest.workers_idle hrun hopen hkeeps hdropped s).2,
    fun s => (hrest.workers_idle hrun hopen hkeeps hdropped s).1,
    hrest.isCalled_eq_false hrun hopen hkeeps hdropped⟩

end Journal

end WriteAhead
