import WriteAhead.Journal.Hosted
import WriteAhead.Proofs.Journal.Progress

/-!
# Deadlock freedom, with a device and a client that call the journal

A run of a `Hosted` journal is a run of the journal itself (`Run.journal`): the calls that the
device and the client make are calls like any other, and only the steps of the workers that wait
with them are left out. So when nobody is inside, to be at rest is to be at rest in the sense of
`Journal.AtRest`, and then everything is done. A worker that is inside keeps its write in flight,
and nothing promises that the call it waits for returns: a client that requests a write which is in
the pipeline behind its own waits for ever.

## Key results

- `Run.drained_iff_outside`: a journal that comes to rest has everything done if and only if nobody
  waits inside the device or the client
- `stranded_at_rest`: without that, and with a device that panics, it comes to rest before
-/

namespace WriteAhead.Journal.Hosted

variable {c : Config} {as : List Action} {h h' : Hosted} {es es' : List Event} {a : Action}

/-- Takes the actions one after the other; none if one of them is not possible. -/
def run? (h : Hosted) : List Action → Option (Hosted × List Event)
  | [] => some (h, [])
  | a :: as => do
    let (h', es) ← h.step a
    let (h'', es') ← h'.run? as
    return (h'', es ++ es')

/-- Starts a journal and takes the actions one after the other. -/
def trace? (c : Config) (as : List Action) : Option (Hosted × List Event) :=
  match Journal.start c with
  | .error _ => none
  | .ok (j, es) => (run? { journal := j } as).map fun (h, es') => (h, es ++ es')

/-- The actions `as` lead from the start of a journal to `h`, with the events `es`. -/
inductive Run (c : Config) : List Action → Hosted → List Event → Prop where
  /-- A journal starts, and nobody is inside the device or the client. -/
  | start {j : Journal} {es : List Event} (hstart : Journal.start c = .ok (j, es)) :
      Run c [] { journal := j } es
  /-- One more action is taken. -/
  | step {as : List Action} {h h' : Hosted} {es es' : List Event} {a : Action}
      (hrun : Run c as h es) (hstep : h.step a = some (h', es')) : Run c (as ++ [a]) h' (es ++ es')

/-- A run can be continued by the actions that `run?` takes. -/
theorem Run.append {as' : List Action} (hrun : Run c as h es)
    (hmore : h.run? as' = some (h', es')) : Run c (as ++ as') h' (es ++ es') := by
  induction as' generalizing as h es es' with
  | nil =>
    obtain ⟨rfl, rfl⟩ := Prod.mk.inj (Option.some.inj hmore)
    simpa using hrun
  | cons a as' ih =>
    obtain ⟨⟨h₁, es₁⟩, hstep, hmore⟩ := Option.bind_eq_some_iff.mp hmore
    obtain ⟨⟨h₂, es₂⟩, htail, heq⟩ := Option.bind_eq_some_iff.mp hmore
    obtain ⟨rfl, rfl⟩ := Prod.mk.inj (Option.some.inj heq)
    simpa using ih (hrun.step hstep) htail

/-- Actions that are all possible (`trace?`) are a run. -/
theorem Run.of_trace? (htrace : trace? c as = some (h, es)) : Run c as h es := by
  unfold trace? at htrace
  split at htrace
  · exact nomatch htrace
  · rename_i j es₀ hstart
    obtain ⟨⟨h₁, es₁⟩, hrun, heq⟩ := Option.map_eq_some_iff.mp htrace
    obtain ⟨rfl, rfl⟩ := Prod.mk.inj heq
    simpa using (Run.start hstart).append hrun

/-! ## The journal alone -/

/-- By `callBack` the device or the client makes a call on the journal. -/
theorem callBack_journal {s : Stage} {a : Journal.Action} (hcall : h.callBack s a = some (h', es)) :
    h.journal.step a = some (h'.journal, es) := by
  obtain ⟨-, hcall⟩ := Option.ite_none_right_eq_some.mp hcall
  obtain ⟨⟨j, es₁⟩, hj, heq⟩ := Option.map_eq_some_iff.mp hcall
  obtain ⟨rfl, rfl⟩ := Prod.mk.inj heq
  exact hj

/-- An action does to the journal what `Action.onJournal` does. -/
theorem step_journal (hstep : h.step a = some (h', es)) :
    h.journal.step a.onJournal = some (h'.journal, es) := by
  cases a with
  | plain a =>
    obtain ⟨-, hstep⟩ := Option.ite_none_left_eq_some.mp hstep
    obtain ⟨⟨j, es₁⟩, hj, heq⟩ := Option.map_eq_some_iff.mp hstep
    obtain ⟨rfl, rfl⟩ := Prod.mk.inj heq
    exact hj
  | request s ids => exact callBack_journal hstep
  | awaitAll s => exact callBack_journal hstep

/-- A hosted run is a `Run` of the journal, with the actions that come to it. -/
theorem Run.journal (hrun : Run c as h es) :
    Journal.Run c (as.map Action.onJournal) h.journal es := by
  induction hrun with
  | start hstart => exact .start hstart
  | step hrun hstep ih =>
    rw [List.map_append, List.map_singleton]
    exact ih.step (step_journal hstep)

/-! ## At rest -/

/-- Neither a worker nor a caller can go on, and the device has completed all its tokens. -/
structure AtRest (h : Hosted) : Prop where
  workers : ∀ s, h.step (.plain (.act (.worker s))) = none
  callers : ∀ k, h.step (.plain (.act (.caller k))) = none
  completed : h.journal.outstanding = []

/-- `step` takes the next critical section of a worker unless the worker is inside. -/
theorem step_worker (h : Hosted) (s : Stage) : h.step (.plain (.act (.worker s))) =
    if h.isInside s then none
    else (h.journal.step (.act (.worker s))).map fun (j, es) => ({ h with journal := j }, es) := rfl

namespace AtRest

/-- A caller that is at rest is so in the journal: `withholds` concerns workers only. -/
theorem caller (hrest : h.AtRest) (k : Nat) : h.journal.step (.act (.caller k)) = none := by
  have hstep := hrest.callers k
  unfold step at hstep
  exact Option.map_eq_none_iff.mp hstep

/-- If nobody is inside the device or the client, nothing keeps the journal but the journal: rest of
the host is rest of `Journal.AtRest`. -/
theorem journal (hrest : h.AtRest) (houtside : ∀ s, h.isInside s = false) : h.journal.AtRest where
  workers s := by
    have hstep := hrest.workers s
    rw [step_worker, houtside, if_neg Bool.false_ne_true] at hstep
    exact Option.map_eq_none_iff.mp hstep
  callers := hrest.caller
  completed := hrest.completed

/-- If every call has returned, nobody waits for one inside the device or the client
(`isInside`). -/
theorem isInside_eq_false (hrest : h.AtRest) (hcalled : h.journal.isCalled = false) (s : Stage) :
    h.isInside s = false := by
  have hreturned (k : Nat) : h.journal.hasReturned k = true := by
    rcases Nat.lt_or_ge k h.journal.callers.length with hk | hk
    · rw [isCalled, Bool.not_eq_false', List.all_eq_true] at hcalled
      exact hcalled k (List.mem_range.mpr hk)
    · -- Nobody called as `k`, and whoever is at rest owes no notification.
      have hsettled : h.journal.deliver? (.caller k) = none := by
        have hstep := hrest.caller k
        rw [Journal.step, actorStep] at hstep
        split at hstep
        · cases hstep
        · assumption
      rw [hasReturned, List.getElem?_eq_none hk, isOwing_eq_false_iff.mpr hsettled]
      rfl
  rw [isInside, Option.any_eq_false]
  intro k _
  simp [hreturned k]

end AtRest

/-- A journal that was not shut down, is told of completions with tokens only, and whose client and
device keep to their contracts, comes to rest with everything done if and only if no worker waits
inside the device or the client for a call on the journal: then nothing is in flight, all queues are
empty, all workers wait for writes, and no call is blocked. Neither of the two is to panic, and the
device is to take every token and to complete it in the end. -/
theorem Run.drained_iff_outside (hrun : Run c as h es) (hopen : h.journal.closing = .open)
    (hmishap : ∀ a ∈ as, a.onJournal.isMishap = false)
    (hreports : ∀ id op, .plain (.report id op) ∉ as) (hrest : h.AtRest) :
    (∀ s, h.isInside s = false) ↔
      h.journal.table.table.inFlight = 0 ∧ (∀ s, (h.journal.queue s).items = []) ∧
        (∀ s, (h.journal.workers.get s).phase = .awaitingItem) ∧ h.journal.isCalled = false := by
  constructor
  · intro houtside
    refine hrun.journal.drained_of_atRest hopen ?_ ?_ (hrest.journal houtside)
    · intro a ha
      obtain ⟨b, hb, rfl⟩ := List.mem_map.mp ha
      exact hmishap b hb
    · intro id op hmem
      obtain ⟨b, hb, heq⟩ := List.mem_map.mp hmem
      cases b with
      | plain a => exact hreports id op (heq ▸ hb)
      | request | awaitAll => exact nomatch heq
  · rintro ⟨-, -, -, hcalled⟩
    exact hrest.isInside_eq_false hcalled

/-- Whether a journal is at rest and owes no notification. -/
def rests (h : Hosted) : Bool :=
  (Stage.all.all fun s =>
    (h.step (.plain (.act (.worker s)))).isNone && (h.journal.queues.get s).owed = []) &&
  ((List.range h.journal.callers.length).all fun k =>
    (h.step (.plain (.act (.caller k)))).isNone) &&
  h.journal.outstanding = []

/-- The computed `rests` is enough for rest. -/
theorem atRest_of_rests (hrests : h.rests = true) : h.AtRest := by
  simp only [rests, Bool.and_eq_true, List.all_eq_true, decide_eq_true_eq,
    Option.isNone_iff_eq_none, List.mem_range] at hrests
  obtain ⟨⟨hworkers, hcallers⟩, hcompleted⟩ := hrests
  refine ⟨fun s => (hworkers s (Stage.mem_all s)).1, fun k => ?_, hcompleted⟩
  rcases Nat.lt_or_ge k h.journal.callers.length with hk | hk
  · exact hcallers k hk
  · exact Option.map_eq_none_iff.mpr
      (step_caller_of_length_le hk fun s => (hworkers s (Stage.mem_all s)).2)

/-- Whether an action reports a completion by write id. -/
def Action.isReport : Action → Bool
  | .plain (.report ..) => true
  | _ => false

/-- Actions of which none `isReport` have none by write id. -/
theorem report_notMem (hreports : ∀ a ∈ as, a.isReport = false) (id : WriteId) (op : Operation) :
    .plain (.report id op) ∉ as := fun hmem => nomatch hreports _ hmem

/-- What happens to the journal alone. -/
def plain (as : List Journal.Action) : List Action := as.map .plain

/-- A write is requested and goes through the pipeline until the client is told of it. -/
def untilTold (k : Nat) (id : WriteId) : List Journal.Action :=
  submission k id ++ passage id 1 .metadata ++ passage id 1 .commit ++
    (passage id 1 .checkpoint).dropLast

/-- The workers look for writes and fall asleep. -/
def idling (stages : List Stage) : List Journal.Action := stages.map fun s => .act (.worker s)

/-- In the call that tells it of write 0 the client requests write 1, and returns. -/
def requestWithin : List Action :=
  plain (untilTold 0 0) ++ .request .checkpoint [1] ::
    plain (List.replicate 3 (.act (.caller 1)) ++ [.act (.worker .checkpoint)] ++
      Stage.all.flatMap (passage 1 1) ++ idling Stage.all)

/-- In `requestWithin` what the client requested is done at rest, and so is everything else. -/
theorem drained_iff_outside_of_requestWithin :
    ∃ h es, Run { bufferSize := 1, maxRequests := 2 } requestWithin h es ∧
      h.journal.closing = .open ∧ h.AtRest ∧ es.filterMap Event.notified? = [0, 1] ∧
      h.within.checkpoint = some 1 ∧ (∀ s, h.isInside s = false) ∧
      h.journal.table.table.inFlight = 0 ∧ (∀ s, (h.journal.queue s).items = []) ∧
      (∀ s, (h.journal.workers.get s).phase = .awaitingItem) ∧ h.journal.isCalled = false := by
  have htrace : (trace? { bufferSize := 1, maxRequests := 2 } requestWithin).map (fun r =>
      ((r.1.journal.closing, r.1.within.checkpoint), r.2.filterMap Event.notified?,
        r.1.rests, Stage.all.all fun s => r.1.isInside s = false)) =
      some ((.open, some 1), [0, 1], true, true) := by decide +kernel
  obtain ⟨⟨h, es⟩, htrace, heq⟩ := Option.map_eq_some_iff.mp htrace
  simp only [Prod.mk.injEq, List.all_eq_true, decide_eq_true_eq] at heq
  obtain ⟨⟨hopen, hwithin⟩, hnotified, hrests, houtside⟩ := heq
  have houtside (s : Stage) : h.isInside s = false := houtside s (Stage.mem_all s)
  have hrun := Run.of_trace? htrace
  have hrest := atRest_of_rests hrests
  refine ⟨h, es, hrun, hopen, hrest, hnotified, hwithin, houtside, ?_⟩
  exact (Run.drained_iff_outside hrun hopen (by decide) (report_notMem (by decide)) hrest).mp
    houtside

/-- The device panics when it is given the first token of write 0, which it completes. -/
def panicking : List Action :=
  plain (submission 0 0 ++ List.replicate 3 (.act (.worker .metadata)) ++
    [.devicePanic .metadata, .complete ⟨0, .writeData, 1⟩] ++ idling [.commit, .checkpoint])

/-- In the call that tells it of write 0 the client requests write 1, which is in the pipeline
behind it already: it waits for the slot, and the worker that could release the slot waits for
it. -/
def requestAgain : List Action :=
  plain (untilTold 0 0 ++ submission 1 1 ++ passage 1 1 .metadata ++ passage 1 1 .commit) ++
    .request .checkpoint [1] :: plain (.act (.caller 2) :: idling [.metadata, .commit])

/-- A journal that was not shut down, whose client never panicked, whose completions came through
tokens only and of which no token was dropped or is outstanding is at rest with writes in flight:
after a panic of the device (`panicking`), and while the client waits for a request of another write
than the one that it is told of (`requestAgain`). -/
theorem stranded_at_rest :
    (∃ h es, Run { bufferSize := 1, maxRequests := 1 } panicking h es ∧
      h.journal.closing = .open ∧
      panicking.filter (·.onJournal.isMishap) = [.plain (.devicePanic .metadata)] ∧
      (∀ id op, .plain (.report id op) ∉ panicking) ∧ h.AtRest ∧
      h.journal.table.table.inFlight = 1 ∧ h.journal.workers.metadata.phase = .crashed .device) ∧
    ∃ h es, Run { bufferSize := 1, maxRequests := 2 } requestAgain h es ∧
      h.journal.closing = .open ∧ requestAgain.filter (·.onJournal.isMishap) = [] ∧
      (∀ id op, .plain (.report id op) ∉ requestAgain) ∧ h.AtRest ∧
      h.journal.table.table.inFlight = 2 ∧ h.journal.workers.checkpoint.phase = .marking 0 ∧
      h.journal.isCalled = true := by
  constructor
  · have htrace : (trace? { bufferSize := 1, maxRequests := 1 } panicking).map (fun r =>
        ((r.1.journal.closing, r.1.rests, r.1.journal.table.table.inFlight),
          r.1.journal.workers.metadata.phase)) =
        some ((.open, true, 1), .crashed .device) := by decide +kernel
    obtain ⟨⟨h, es⟩, htrace, heq⟩ := Option.map_eq_some_iff.mp htrace
    simp only [Prod.mk.injEq] at heq
    obtain ⟨⟨hopen, hrests, hflight⟩, hphase⟩ := heq
    exact ⟨h, es, .of_trace? htrace, hopen, by decide, report_notMem (by decide),
      atRest_of_rests hrests, hflight, hphase⟩
  · have htrace : (trace? { bufferSize := 1, maxRequests := 2 } requestAgain).map (fun r =>
        ((r.1.journal.closing, r.1.rests, r.1.journal.table.table.inFlight),
          r.1.journal.workers.checkpoint.phase, r.1.journal.isCalled)) =
        some ((.open, true, 2), .marking 0, true) := by decide +kernel
    obtain ⟨⟨h, es⟩, htrace, heq⟩ := Option.map_eq_some_iff.mp htrace
    simp only [Prod.mk.injEq] at heq
    obtain ⟨⟨hopen, hrests, hflight⟩, hphase, hcalled⟩ := heq
    exact ⟨h, es, .of_trace? htrace, hopen, by decide, report_notMem (by decide),
      atRest_of_rests hrests, hflight, hphase, hcalled⟩

end WriteAhead.Journal.Hosted
