import WriteAhead.Proofs.Journal.Dismissal
import WriteAhead.Proofs.Journal.Progress
import WriteAhead.Proofs.Journal.Quiescence
import WriteAhead.Proofs.Journal.Submissions

/-!
# What the steps of one caller come to

In an open journal a request for a write that has a slot goes on until it is accepted, and a call
that waits for all writes returns when no slot is in use. A caller whose calls have returned only
sends what it owes. So where callers come in one after the other, each after the last has returned,
only the last has something to do.

## Key results

- `Change.of_isOver`: the steps of a caller whose calls have returned
- `Run.request_step`, `drain_step`: the steps of a request and of a call that waits for all writes
- `Run.inFlight_step`: without a new claim nothing in flight stays nothing in flight
-/

namespace WriteAhead

namespace Pipeline

variable {p p' : Pipeline} {a : Journal.Action} {es es' : List Event}

/-- Slots are `acquired` by callers, and by nobody else in the pipeline. -/
theorem Move.caller_of_acquired {id : WriteId} {g : Generation} (hmove : p.Move a es p')
    (h : .acquired id g ∈ es) : ∃ k, a = .act (.caller k) := by
  cases hmove with
  | note hes | turnAway hes | stop hes | advance hes | turn hes => exact nomatch hes _ h
  | acquire => exact ⟨_, rfl⟩
  | _ => simp at h

/-- With `inFlight` at 0 and without a new claim, no slot comes into use. -/
theorem Move.inFlight_eq_zero {c : Config} {as : List Journal.Action} (hrun : Run c as p es)
    (hmove : p.Move a es' p') (hflight : p.table.inFlight = 0)
    (hclaims : ∀ id g, .acquired id g ∉ es') : p'.table.inFlight = 0 := by
  have hfree := (Table.IsCounted.inFlight_eq_zero_iff hrun.isCounted).mp hflight
  -- All slots are free before, so any `Move` that changes a slot in use is impossible.
  have hsame (hslots : p'.table.slots = p.table.slots) : p'.table.inFlight = 0 := by
    refine (Table.IsCounted.inFlight_eq_zero_iff (hrun.move hmove).isCounted).mpr fun id s hs => ?_
    rw [slot?_of_slots_eq hslots] at hs
    exact hfree id s hs
  cases hmove.entry hrun.suited with
  | idle _ hslots | lose _ hslots | progress _ hslots => exact hsame hslots
  | claim => exact absurd (List.mem_singleton_self _) (hclaims _ _)
  | issue _ hissue =>
    obtain ⟨s, huse, -, hrep⟩ := Table.recordIssue_ok hissue
    exact nomatch huse.symm.trans (hfree _ s hrep.old)
  -- A marked write has a place, so its slot would be in use.
  | settle hmark hplaces =>
    obtain ⟨s, -, hrep⟩ := Table.markCheckpointDone_ok hmark
    have hfits := hrun.chronicle.fits (hplaces.mem_iff.mpr List.mem_cons_self) hrep.old
    exact nomatch hfits.inUse.symm.trans (hfree _ s hrep.old)
  | report hreport =>
    rcases Table.recordCompletion_cases hreport with ⟨-, hslots, -⟩ | ⟨s, haccepts, -, -, hrep⟩
    · exact hsame hslots
    · exact nomatch (Slot.inUse_of_accepts haccepts).symm.trans (hfree _ s hrep.old)

end Pipeline

namespace Journal

variable {c : Config} {as : List Action} {j j' : Journal} {es es' : List Event} {a : Action}
  {k : Nat} {step : Step} {id : WriteId}

/-- The same for a step of a journal: `inFlight` stays 0 without a new claim. -/
theorem Run.inFlight_step (hrun : Run c as j es) (hstep : j.step a = some (j', es'))
    (hflight : j.table.table.inFlight = 0) (hclaims : ∀ id g, .acquired id g ∉ es') :
    j'.table.table.inFlight = 0 :=
  (hrun.move hstep).inFlight_eq_zero hrun.pipeline hflight hclaims

/-- Writes are accepted from callers only, so the `accepted?` events of all other steps are none. -/
theorem Change.accepted_eq_nil (h : Change j a step) (hact : ∀ k, a ≠ .act (.caller k)) :
    step.2.filterMap Event.accepted? = [] := by
  have hanswered := h.answered_eq_nil hact
  rw [List.filterMap_eq_nil_iff] at hanswered ⊢
  intro e he
  have := hanswered e he
  cases e <;> first | rfl | cases this

/-- A caller whose calls have returned (`Caller.isOver`) does nothing but send what it owes. -/
theorem Change.of_isOver (h : Change j (.act (.caller k)) step)
    (hover : ∀ caller, j.callers[k]? = some caller → caller.isOver = true) :
    step.1.callers = j.callers ∧ step.2 = [] := by
  cases h with
  | deliver => exact ⟨rfl, rfl⟩
  -- Callers that look at a monitor are in the middle of a call.
  | @acquire k id left answers first m r hcaller =>
    have := hover _ hcaller
    cases first <;> simp [Caller.isOver] at this
  | @submit k id left answers first m r hcaller =>
    have := hover _ hcaller
    cases first <;> simp [Caller.isOver] at this
  | @drain k first m r hcaller =>
    have := hover _ hcaller
    cases first <;> simp [Caller.isOver] at this

/-- A caller whose calls have returned (`isOver`) comes to owe nothing. -/
theorem Change.deliver?_eq_none (h : Change j a step)
    (hover : ∀ caller, j.callers[k]? = some caller → caller.isOver = true)
    (hsettled : j.deliver? (.caller k) = none) : step.1.deliver? (.caller k) = none := by
  rw [deliver?_eq_none_iff] at hsettled ⊢
  rintro s ⟨b, sig⟩ hx rfl
  rcases h.owed hx with hold | hnew
  · exact hsettled s _ hold rfl
  · cases hnew with
    | caller hcaller hpoint =>
      have := hover _ hcaller
      simp only [Caller.isOver, Bool.and_eq_true, beq_iff_eq] at this
      exact hpoint this.1

/-- What a step of the only request of a caller comes to: it goes on, or its write is accepted. -/
inductive Requested (j : Journal) (k : Nat) (id : WriteId) (step : Step) : Prop where
  | goes (point : Submission) (left : List WriteId)
      (hahead : (Caller.submitter point left []).ahead = [id])
      (hcallers : step.1.callers = j.callers.set k (.submitter point left []))
      (haccepted : step.2.filterMap Event.accepted? = [])
  | accepted (hcallers : step.1.callers = j.callers.set k (.submitter .between [] [none]))
      (haccepted : step.2.filterMap Event.accepted? = [id])

/-- In an open journal the request of a write with a slot is not refused: each step of its caller is
`Requested`. -/
theorem Run.request_step (hrun : Run c as j es) (hopen : j.closing = .open)
    (hid : id < c.maxRequests) {point : Submission} {left : List WriteId}
    (hcaller : j.callers[k]? = some (.submitter point left []))
    (hahead : (Caller.submitter point left []).ahead = [id])
    (h : Change j (.act (.caller k)) step) : j.Requested k id step := by
  cases h with
  | deliver => exact .goes point left hahead (List.set_eq_self hcaller).symm rfl
  | @acquire k i left' answers first m r hcaller' hvisit =>
    obtain ⟨rfl, rfl, rfl⟩ : i = id ∧ left' = [] ∧ answers = [] := by
      rw [hcaller] at hcaller'
      cases first <;> cases Option.some.inj hcaller' <;> simpa [Caller.ahead] using hahead
    rcases hvisit.slot_cases with ⟨g, rfl, -⟩ | ⟨e, rfl, -⟩ | ⟨rfl, -⟩
    · exact .goes (.admitted i) [] rfl rfl rfl
    · -- Only an id without a slot or a shutdown is refused, and here there is neither.
      rcases (hrun.of_acquire_eq_refused hvisit.slot_refused).1 with hle | hdown
      · exact absurd hid (Nat.not_lt.mpr hle)
      · rw [hrun.orderly.shutDown, hopen] at hdown
        exact nomatch hdown
    · exact .goes (.awaitingSlot i) [] rfl rfl rfl
  | @submit k i left' answers first m r hcaller' hvisit =>
    obtain ⟨rfl, rfl, rfl⟩ : i = id ∧ left' = [] ∧ answers = [] := by
      rw [hcaller] at hcaller'
      cases first <;> cases Option.some.inj hcaller' <;> simpa [Caller.ahead] using hahead
    rcases hvisit.push_cases with ⟨rfl, -⟩ | ⟨rfl, hclosed, -⟩ | ⟨rfl, -⟩
    · exact .accepted rfl rfl
    · -- The queues of an open journal are open.
      rw [show (j.queues.get .metadata).queue.closed = _ from hrun.orderly.closed .metadata,
        hopen] at hclosed
      exact nomatch hclosed
    · exact .goes (.awaitingRoom i) [] rfl rfl (by cases first <;> rfl)
  | @drain k first m r hcaller' =>
    rw [hcaller] at hcaller'
    exact nomatch Option.some.inj hcaller'

/-- A call that waits for all writes returns when `inFlight` is 0. -/
theorem Change.drain_step {point : Drain} (hcaller : j.callers[k]? = some (.drainer point))
    (h : Change j (.act (.caller k)) step) :
    step.2 = [] ∧ ∃ point', step.1.callers = j.callers.set k (.drainer point') ∧
      (point' = .returned → point = .returned ∨ step.1.table.table.inFlight = 0) := by
  cases h with
  | deliver => exact ⟨rfl, point, (List.set_eq_self hcaller).symm, .inl⟩
  | @acquire k i left' answers first m r hcaller' =>
    rw [hcaller] at hcaller'
    cases first <;> exact nomatch Option.some.inj hcaller'
  | @submit k i left' answers first m r hcaller' =>
    rw [hcaller] at hcaller'
    exact nomatch Option.some.inj hcaller'
  | @drain k first m r hcaller' hvisit =>
    obtain ⟨htable, ⟨rfl, hflight⟩ | ⟨rfl, -⟩⟩ := hvisit.drain_cases
    · refine ⟨rfl, .returned, rfl, fun _ => .inr ?_⟩
      show m.table.inFlight = 0
      rw [htable]
      exact hflight
    · exact ⟨rfl, .awaiting, rfl, nofun⟩

end Journal

end WriteAhead
