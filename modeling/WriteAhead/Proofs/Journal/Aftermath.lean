import WriteAhead.Proofs.Journal.Shutdown

/-!
# A journal that was shut down stands still

After a shutdown there is no worker left, and the table gives no slot to anybody. Reports still come
in and are noted in the slots, but none of them can release one: an occupant with which the last
stage was not done is not released by reports, and for one with which it was done every operation is
noted already. So the occupants of the slots and the queues stay what they were when the shutdown
returned, and whoever waits for all writes returns at once or never.

## Key results

- `Pipeline.Move.occupants_eq`: no report releases a slot
- `Change.moves`: what a step makes of a caller
- `Run.stands_still`: what later steps leave as it was
-/

namespace WriteAhead

/-- Whether a slot is in use, and the generation of its occupant. -/
def Slot.occupant (s : Slot) : Bool × Generation := (s.inUse, s.generation)

/-! ## Occupants -/

namespace Pipeline

variable {p p' : Pipeline} {a : Journal.Action} {es es' : List Event}

/-- An occupant that can still note an operation keeps its slot: it was not marked, so `settle` does
not release it. -/
theorem Chronicle.keeps {id : WriteId} {s : Slot} {op : Operation} (h : p.Chronicle es)
    (hs : p.table.slot? id = some s) (huse : s.inUse = true)
    (hnew : s.completed.contains op = false) : (s.complete op).settle = s.complete op := by
  have hunmarked : s.checkpointDone = false := h.unmarked hs huse hnew
  apply Slot.settle_of_not_drained
  simp [Slot.isDrained, Slot.complete, hunmarked]

/-- Without workers and with the table shut down, a step leaves every `occupant` in its slot: nobody
claims, and nobody marks. -/
theorem Move.occupants_eq (hmove : p.Move a es' p') (h : p.Chronicle es)
    (hdown : p.table.isShutDown = true) (hover : ∀ s, (p.workers.get s).isOver = true) :
    (∀ id, (p'.table.slot? id).map Slot.occupant = (p.table.slot? id).map Slot.occupant) ∧
      p'.table.inFlight = p.table.inFlight := by
  -- All workers are over, so no worker issues, pushes, notifies or marks.
  have hgone {s : Stage} {phase : Phase} (hphase : p.workers.get s = phase)
      (halive : phase.isOver = false) : False := by
    have hworker := hover s
    rw [hphase, halive] at hworker
    cases hworker
  -- A completion fills the `completed` of its slot. By `h.keeps` it does not release it.
  have hreport {id : WriteId} {op : Operation} {g : Option Generation} {t : Table}
      {v : Table.Verdict} (hrecord : p.table.recordCompletion id op g = (t, v)) :
      (∀ i, (t.slot? i).map Slot.occupant = (p.table.slot? i).map Slot.occupant) ∧
        t.inFlight = p.table.inFlight := by
    rcases Table.recordCompletion_cases hrecord with
      ⟨-, hslots, -, hflight, -⟩ | ⟨s, haccepts, hnew, -, hrep⟩
    · refine ⟨fun i => ?_, hflight⟩
      rw [Table.slot?, hslots]
      rfl
    · have huse := Slot.inUse_of_accepts haccepts
      rw [h.keeps hrep.old huse hnew] at hrep
      refine ⟨fun i => ?_, ?_⟩
      · rw [hrep.slot?]
        split
        · rename_i hi
          rw [hi, hrep.old]
          rfl
        · rfl
      · rw [hrep.inFlight_eq]
        exact Nat.add_sub_cancel _ s.inUse.toNat
  cases hmove with
  | acquire hacquire =>
    obtain ⟨s, -, hopen, -⟩ := Table.acquire_granted hacquire
    cases hdown.symm.trans hopen
  | record hphase => exact (hgone hphase rfl).elim
  | mark hphase => exact (hgone hphase rfl).elim
  | complete _ hrecord => exact hreport hrecord
  | report hrecord => exact hreport hrecord
  | _ => exact ⟨fun _ => rfl, rfl⟩

end Pipeline

namespace Journal

variable {c : Config} {as as' : List Action} {j j' : Journal} {es es' : List Event} {a : Action}
  {k : Nat} {step : Step}

/-! ## Standing still -/

/-- The occupants of the slots and the queues are the same. -/
structure Frozen (j j' : Journal) : Prop where
  closing_eq : j'.closing = j.closing
  queue_eq : ∀ s, j'.queue s = j.queue s
  occupant_eq : ∀ id,
    (j'.table.table.slot? id).map Slot.occupant = (j.table.table.slot? id).map Slot.occupant
  inFlight_eq : j'.table.table.inFlight = j.table.table.inFlight

theorem Frozen.refl (j : Journal) : Frozen j j := ⟨rfl, fun _ => rfl, fun _ => rfl, rfl⟩

theorem Frozen.trans {j₁ : Journal} (h : Frozen j j₁) (h' : Frozen j₁ j') : Frozen j j' :=
  ⟨h'.closing_eq.trans h.closing_eq, fun s => (h'.queue_eq s).trans (h.queue_eq s),
    fun id => (h'.occupant_eq id).trans (h.occupant_eq id), h'.inFlight_eq.trans h.inFlight_eq⟩

/-- A journal that was shut down stays so: its `closing` is `done` for ever. -/
theorem Change.closing_of_done (h : Change j a step) (hdone : j.closing = .done) :
    step.1.closing = .done := by
  have hother (ha : a ≠ .act .closer) (hdown : a ≠ .shutDown) : step.1.closing = .done :=
    (h.steady ha hdown).closing_eq.trans hdone
  cases h with
  | deliver | shutDownAgain => exact hdone
  | close hclosing | abort hclosing | gone hclosing | shutDown hclosing =>
    exact nomatch hclosing.symm.trans hdone
  | _ => exact hother nofun nofun

/-- All workers have come to their end (`isOver`) when a shutdown returns, since it waits for
each. -/
theorem Run.isOver (hrun : Run c as j es) (hdone : j.closing = .done) (s : Stage) :
    (j.workers.get s).phase.isOver = true :=
  hrun.orderly.joined s (by rw [hdone]; rfl)

/-- A step after a shutdown leaves slots, queues and counters as `Frozen` says, and tells the client
nothing. -/
theorem Run.frozen_step (hrun : Run c as j es) (hdone : j.closing = .done)
    (hstep : j.step a = some (j', es')) : Frozen j j' ∧ ∀ id, .notified id ∉ es' := by
  have hchange := change_of_step hrun.attended hstep
  have habort : j.closing.hasAborted = true := by rw [hdone]; rfl
  have hover := hrun.isOver hdone
  have hoccupants := (hrun.move hstep).occupants_eq hrun.pipeline.chronicle
    (hrun.orderly.shutDown.trans habort) fun s => by
      rw [workers_pipeline, Phase.isOver_awake]
      exact hover s
  refine ⟨⟨?_, ?_, hoccupants.1, hoccupants.2⟩, fun id hmem => ?_⟩
  · exact (hchange.closing_of_done hdone).trans hdone.symm
  · exact fun s => hchange.queue_eq hrun habort (.inl (hover s))
  · -- The client is told by a worker that has a write.
    have hheld := hchange.handles hrun.pipeline.suited hmem rfl
    exact nomatch (Phase.held?_of_isOver (hover .checkpoint)).symm.trans hheld

/-- Any number of steps after a shutdown leave what `Frozen` lists, and tell the client nothing. -/
theorem Run.frozen (hrun : Run c as j es) (hdone : j.closing = .done)
    (hmore : j.run? as' = some (j', es')) : Frozen j j' ∧ ∀ id, .notified id ∉ es' := by
  induction as' generalizing as j es es' with
  | nil =>
    obtain ⟨rfl, rfl⟩ := Prod.mk.inj (Option.some.inj hmore)
    exact ⟨.refl j, fun id hmem => nomatch hmem⟩
  | cons a as' ih =>
    obtain ⟨j₁, es₁, es₂, hstep, htail, rfl⟩ := run?_cons_some hmore
    obtain ⟨hfirst, hnone⟩ := hrun.frozen_step hdone hstep
    obtain ⟨hothers, hnone'⟩ := ih (hrun.step hstep) (hfirst.closing_eq.trans hdone) htail
    refine ⟨hfirst.trans hothers, fun id hmem => ?_⟩
    rcases List.mem_append.mp hmem with hmem | hmem
    · exact hnone id hmem
    · exact hnone' id hmem

/-! ## Callers who wait for all writes -/

/-- What a step makes of the caller that has a number. -/
inductive Moves (j : Journal) : Option Caller → Option Caller → Prop where
  | stays {caller : Option Caller} : Moves j caller caller
  /-- It comes in. -/
  | enters {caller : Caller}
      (hnew : caller = .drainer .entering ∨ ∃ ids, caller = .submitter .between ids []) :
      Moves j none (some caller)
  /-- It goes on with its requests. -/
  | requests {point point' : Submission} {left left' : List WriteId}
      {answers answers' : List (Option JournalError)} :
      Moves j (some (.submitter point left answers)) (some (.submitter point' left' answers'))
  /-- It finds that no slot is in use. -/
  | returns {point : Drain} (hzero : j.table.table.inFlight = 0) :
      Moves j (some (.drainer point)) (some (.drainer .returned))
  /-- It finds a slot in use. -/
  | waits {point : Drain} (hne : j.table.table.inFlight ≠ 0) :
      Moves j (some (.drainer point)) (some (.drainer .awaiting))

/-- What a step makes of the caller that has a number: `Moves` has the few things that it can be. -/
theorem Change.moves (h : Change j a step) (k : Nat) :
    Moves j j.callers[k]? step.1.callers[k]? := by
  have hsame (hcallers : step.1.callers = j.callers) :
      Moves j j.callers[k]? step.1.callers[k]? := by
    rw [hcallers]
    exact .stays
  have hother (hact : ∀ i, a ≠ .act (.caller i)) (hsubmit : ∀ ids, a ≠ .submit ids)
      (hawait : a ≠ .awaitAll) : Moves j j.callers[k]? step.1.callers[k]? :=
    hsame (h.callers_eq hact hsubmit hawait)
  -- If the caller that steps is not `k`, then `k` stays where it stands.
  have hset {i : Nat} {before after : Caller} (hbefore : j.callers[i]? = some before)
      (hmoves : Moves j (some before) (some after)) :
      Moves j j.callers[k]? (j.callers.set i after)[k]? := by
    by_cases hik : i = k
    · subst hik
      have hlt := (List.getElem?_eq_some_iff.mp hbefore).1
      rw [List.getElem?_set_self hlt, hbefore]
      exact hmoves
    · rw [List.getElem?_set_ne hik]
      exact .stays
  -- A new caller comes last, so those that were there keep their numbers.
  have hnew {caller : Caller}
      (hnew : caller = .drainer .entering ∨ ∃ ids, caller = .submitter .between ids []) :
      Moves j j.callers[k]? (j.callers ++ [caller])[k]? := by
    rw [List.getElem?_append]
    split
    · exact .stays
    · rename_i hk
      rw [List.getElem?_eq_none (l := j.callers) (Nat.le_of_not_lt hk), List.getElem?_singleton]
      split
      · exact .enters hnew
      · exact .stays
  cases h with
  | deliver => exact hsame rfl
  | @acquire i id left answers first m r hcaller hvisit =>
    have hrequests {point : Submission} {left' : List WriteId}
        {answers' : List (Option JournalError)} :
        Moves j j.callers[k]? (j.callers.set i (.submitter point left' answers'))[k]? := by
      refine hset hcaller ?_
      cases first <;> exact .requests
    rcases hvisit.slot_cases with ⟨g, rfl, -⟩ | ⟨e, rfl, -⟩ | ⟨rfl, -⟩ <;> exact hrequests
  | @submit i id left answers first m r hcaller =>
    cases r with
    | none => exact hset hcaller .requests
    | some r => cases r <;> exact hset hcaller .requests
  | @drain i first m r hcaller hvisit =>
    rcases hvisit.drain_cases.2 with ⟨rfl, hzero⟩ | ⟨rfl, hne⟩
    · exact hset hcaller (.returns hzero)
    · exact hset hcaller (.waits hne)
  | arrive => exact hnew (.inr ⟨_, rfl⟩)
  | await => exact hnew (.inl rfl)
  | _ => exact hother nofun nofun nofun

/-- Who requests writes does nothing else later: a `submitter` stays one. -/
theorem Moves.submitter {point : Submission} {left : List WriteId}
    {answers : List (Option JournalError)} {after : Option Caller}
    (h : Moves j (some (.submitter point left answers)) after) :
    ∃ point' left' answers', after = some (.submitter point' left' answers') := by
  cases h with
  | stays | requests => exact ⟨_, _, _, rfl⟩

/-- Of the callers only a `submitter` owes notifications, since only a push leaves one. -/
theorem Run.submitter_of_owed (hrun : Run c as j es) {s : Stage} {sig : Queue.Signal}
    (hx : (.caller k, sig) ∈ (j.queues.get s).owed) :
    ∃ point left answers, j.callers[k]? = some (.submitter point left answers) := by
  induction hrun generalizing s sig with
  | start hstart =>
    obtain ⟨-, -, rfl, -⟩ := start_eq_ok hstart
    cases s <;> exact nomatch hx
  | step hrun hstep ih =>
    have hchange := change_of_step hrun.attended hstep
    have hmoves := hchange.moves k
    rcases hchange.owed hx with hold | ⟨⟩ | ⟨⟩ | ⟨hcaller⟩
    · obtain ⟨point, left, answers, hcaller⟩ := ih hold
      rw [hcaller] at hmoves
      exact hmoves.submitter
    · rw [hcaller] at hmoves
      exact hmoves.submitter

/-- A shutdown is `done` when it finds the last worker gone, and that step moves no caller. -/
theorem Change.callers_of_done (h : Change j a step) (hdone : step.1.closing = .done)
    (hbusy : j.closing ≠ .done) : j.closing ≠ .open ∧ step.1.callers = j.callers := by
  have hother (ha : a ≠ .act .closer) (hdown : a ≠ .shutDown) :
      j.closing ≠ .open ∧ step.1.callers = j.callers :=
    absurd ((h.steady ha hdown).closing_eq.symm.trans hdone) hbusy
  cases h with
  | gone hclosing => exact ⟨by rw [hclosing]; exact nofun, rfl⟩
  | deliver | shutDownAgain => exact absurd hdone hbusy
  | @close s closing hclosing hnot hnext =>
    rw [hnext] at hdone
    cases s <;> exact nomatch hdone
  | abort | shutDown => exact nomatch hdone
  | _ => exact hother nofun nofun

/-- Whoever waits for all writes after a shutdown has found a slot in use, and one is in use still:
`inFlight` is frozen. -/
theorem Run.inFlight_of_awaiting (hrun : Run c as j es) (hdone : j.closing = .done)
    (hcaller : j.callers[k]? = some (.drainer .awaiting)) : j.table.table.inFlight ≠ 0 := by
  induction hrun with
  | start hstart =>
    obtain ⟨-, -, rfl, -⟩ := start_eq_ok hstart
    exact nomatch hdone
  | @step as j j' es es' a hrun hstep ih =>
    have hchange := change_of_step hrun.attended hstep
    -- Either the shutdown had returned before, or it returns with this step, when no caller is
    -- inside.
    by_cases hbefore : j.closing = .done
    · rw [(hrun.frozen_step hbefore hstep).1.inFlight_eq]
      have hmoves := hchange.moves k
      rw [hcaller] at hmoves
      generalize hk : j.callers[k]? = before at hmoves
      cases hmoves with
      | stays => exact ih hbefore hk
      | enters hnew => rcases hnew with heq | ⟨ids, heq⟩ <;> cases heq
      | waits hne => exact hne
    · obtain ⟨hopen, hcallers⟩ := hchange.callers_of_done hdone hbefore
      rw [hcallers] at hcaller
      exact nomatch hrun.secluded.away hopen hbefore k _ hcaller

/-! ## The time after a shutdown -/

/-- What the steps after a shutdown leave as it was. -/
structure StandsStill (j j' : Journal) (es : List Event) : Prop where
  /-- The occupants of the slots and the queues are the same. -/
  frozen : Frozen j j'
  /-- The client is told of nothing. -/
  silent : ∀ id, .notified id ∉ es
  /-- If no slot is in use, whoever is to wait for all writes returns without waiting. -/
  returns : j.table.table.inFlight = 0 → ∀ (k : Nat) point,
    j'.callers[k]? = some (.drainer point) → point ≠ .returned →
    j'.step (.act (.caller k)) = some (j'.setCaller k (.drainer .returned), [])
  /-- Otherwise nobody returns. -/
  waits : j.table.table.inFlight ≠ 0 → ∀ k : Nat,
    j'.callers[k]? = some (.drainer .returned) → j.callers[k]? = some (.drainer .returned)

/-- A call that waits for all writes returns when it first looks, if `inFlight` is 0. -/
theorem step_of_entering (hcaller : j.callers[k]? = some (.drainer .entering))
    (howed : j.deliver? (.caller k) = none) (hzero : j.table.table.inFlight = 0) :
    j.step (.act (.caller k)) = some (j.setCaller k (.drainer .returned), []) := by
  have henter : j.table.enter (.caller k) .drain = (j.table, some .drained) := by
    simp [Table.Monitor.enter, Table.Monitor.attempt, Table.isDrained, hzero]
  simp only [step, actorStep, howed, callerStep, hcaller, Option.bind_some, henter]
  rfl

/-- A call that waits for all writes has not returned after a shutdown if `inFlight` was not 0
then. -/
theorem Run.returned_before (hrun : Run c as j es) (hdone : j.closing = .done)
    (hne : j.table.table.inFlight ≠ 0) (hmore : j.run? as' = some (j', es'))
    (hcaller : j'.callers[k]? = some (.drainer .returned)) :
    j.callers[k]? = some (.drainer .returned) := by
  induction as' generalizing as j es es' with
  | nil =>
    obtain ⟨rfl, rfl⟩ := Prod.mk.inj (Option.some.inj hmore)
    exact hcaller
  | cons a as' ih =>
    obtain ⟨j₁, es₁, es₂, hstep, htail, rfl⟩ := run?_cons_some hmore
    obtain ⟨hfrozen, -⟩ := hrun.frozen_step hdone hstep
    have hcaller₁ := ih (hrun.step hstep) (hfrozen.closing_eq.trans hdone)
      (by rwa [hfrozen.inFlight_eq]) htail
    -- A caller that returns finds `inFlight` to be 0, and it is not.
    have hmoves := (change_of_step hrun.attended hstep).moves k
    rw [hcaller₁] at hmoves
    generalize j.callers[k]? = before at hmoves
    cases hmoves with
    | stays => rfl
    | enters hnew => rcases hnew with heq | ⟨ids, heq⟩ <;> cases heq
    | returns hzero => exact absurd hzero hne

/-- After a shutdown the client is told of nothing, every slot is in use or free as it was and has
the same generation, as many writes are in flight, and the queues hold and have counted the same
(`StandsStill`). So a call that waits for all writes returns at once if none was in flight when the
shutdown returned, and never otherwise. -/
theorem Run.stands_still (hrun : Run c as j es) (hdone : j.closing = .done)
    (hmore : j.run? as' = some (j', es')) : StandsStill j j' es' := by
  obtain ⟨hfrozen, hsilent⟩ := hrun.frozen hdone hmore
  have hrun' := hrun.append hmore
  constructor
  case frozen => exact hfrozen
  case silent => exact hsilent
  case returns =>
    intro hzero k point hcaller hpoint
    have hzero' : j'.table.table.inFlight = 0 := hfrozen.inFlight_eq.trans hzero
    have howed : j'.deliver? (.caller k) = none := by
      rw [deliver?_eq_none_iff]
      rintro s ⟨b, sig⟩ hx rfl
      -- Only who requests writes can owe a notification.
      obtain ⟨_, _, _, hsubmitter⟩ := hrun'.submitter_of_owed hx
      exact nomatch hcaller.symm.trans hsubmitter
    cases point with
    | entering => exact step_of_entering hcaller howed hzero'
    | awaiting =>
      have hdone' := hfrozen.closing_eq.trans hdone
      exact absurd hzero' (hrun'.inFlight_of_awaiting hdone' hcaller)
    | returned => exact absurd rfl hpoint
  case waits => exact fun hne k => hrun.returned_before hdone hne hmore

/-- Another shutdown, a caller that waits for all writes, a request, and a report of every operation
of a write that was abandoned. -/
def belated : List Action :=
  [.shutDown, .awaitAll, .act (.caller 2), .submit [1], .act (.caller 3)] ++
    Operation.all.map (.report 0)

/-- All operations of the abandoned write are noted, and it keeps its slot. -/
theorem stands_still_of_belated :
    ∃ j es j' es', Run { bufferSize := 1, maxRequests := 2 } (interruption ++ conclusion) j es ∧
      j.closing = .done ∧ j.table.table.inFlight = 2 ∧ j.run? belated = some (j', es') ∧
      j'.table.table.slot? 0 = some ⟨true, 1, .full, 0, false⟩ ∧
      j'.callers[2]? = some (.drainer .awaiting) ∧ StandsStill j j' es' := by
  have hend : ((trace? { bufferSize := 1, maxRequests := 2 } (interruption ++ conclusion)).bind
      fun r => (r.1.run? belated).map fun r' => (r.1.closing, r.1.table.table.inFlight,
        r'.1.table.table.slot? 0, r'.1.callers[2]?)) =
      some (.done, 2, some ⟨true, 1, .full, 0, false⟩, some (.drainer .awaiting)) := by
    decide +kernel
  obtain ⟨⟨j, es⟩, htrace, heq⟩ := Option.bind_eq_some_iff.mp hend
  obtain ⟨⟨j', es'⟩, hmore, heq⟩ := Option.map_eq_some_iff.mp heq
  simp only [Prod.mk.injEq] at heq
  obtain ⟨hdone, hflight, hslot, hcaller⟩ := heq
  have hrun := Run.of_trace? htrace
  exact ⟨j, es, j', es', hrun, hdone, hflight, hmore, hslot, hcaller,
    hrun.stands_still hdone hmore⟩

end Journal

end WriteAhead
