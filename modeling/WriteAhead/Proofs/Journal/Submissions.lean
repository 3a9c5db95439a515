import WriteAhead.Proofs.Journal.Refusals

/-!
# Requests are answered in order

A submitter requests its writes one after the other, and each request is answered before the next
one begins. So what was answered and what is still pending make up what was submitted, in order as
long as there is one submitter. In an open journal no write is refused that has a slot.

## Key results

- `Change.requests`: what a step does to the writes that are pending
- `Run.answered`: of a sole submitter, the answered writes and the pending ones are the submitted
ones
- `Run.accepted`: in an open journal, every answer about a write with a slot is an acceptance
-/

namespace WriteAhead

/-- The write whose request is answered. -/
def Event.answered? : Event → Option WriteId
  | .accepted id | .refused id _ => some id
  | _ => none

/-- The writes that a new caller requests. -/
def Journal.Action.submitted? : Journal.Action → Option (List WriteId)
  | .submit ids => some ids
  | _ => none

/-- The writes that a submitter has not been answered about. -/
def Caller.pending? : Caller → Option (List WriteId)
  | .submitter point left answers => some (ahead (.submitter point left answers))
  | .drainer _ => none

namespace Journal

variable {c : Config} {as : List Action} {j j' : Journal} {es es' : List Event} {a : Action}
  {step : Step} {ids : List WriteId}

/-- The writes that each submitter has not been answered about. -/
def pending (j : Journal) : List (List WriteId) := j.callers.filterMap Caller.pending?

theorem pending_of_callers_eq (h : j'.callers = j.callers) : j'.pending = j.pending := by
  rw [pending, h, pending]

/-- A new caller comes last in `pending`. -/
theorem pending_call (j : Journal) (caller : Caller) :
    (j.call caller).pending = j.pending ++ [caller].filterMap Caller.pending? := by
  rw [pending, Journal.call, List.filterMap_append]
  rfl

/-- What happens to the writes that are pending, and which of them is answered. -/
inductive Requests (before : List (List WriteId)) :
    Action → List (List WriteId) → List WriteId → Prop where
  /-- Nothing. -/
  | quiet {a : Action} (ha : a.submitted? = none) : Requests before a before []
  /-- The next write of a submitter is answered. -/
  | answer {k : Nat} {id : WriteId} {left : List WriteId} {pre post : List (List WriteId)}
      (hpending : before = pre ++ (id :: left) :: post) :
      Requests before (.act (.caller k)) (pre ++ left :: post) [id]
  /-- A submitter comes in. -/
  | submit {ids : List WriteId} : Requests before (.submit ids) (before ++ [ids]) []

/-- A step of a caller that answers nothing and leaves as much `pending` takes no request away. -/
private theorem requests_of_same {k : Nat} {caller caller' : Caller} {es : List Event}
    (hcaller : j.callers[k]? = some caller) (hsame : caller'.pending? = caller.pending?)
    (hes : es.filterMap Event.answered? = []) :
    Requests j.pending (.act (.caller k)) ((j.callers.set k caller').filterMap Caller.pending?)
      (es.filterMap Event.answered?) := by
  rw [hes, List.filterMap_set_eq hcaller hsame]
  exact .quiet rfl

/-- A step of a submitter that is answered about its next write takes that from what is
`pending`. -/
private theorem requests_of_answer {k : Nat} {caller caller' : Caller} {id : WriteId}
    {left : List WriteId} (hcaller : j.callers[k]? = some caller)
    (hbefore : caller.pending? = some (id :: left)) (hafter : caller'.pending? = some left) :
    Requests j.pending (.act (.caller k)) ((j.callers.set k caller').filterMap Caller.pending?)
      [id] := by
  obtain ⟨pre, post, hpending, hset⟩ := List.filterMap_set_of_some hcaller hbefore
  rw [hset caller' left hafter]
  exact .answer hpending

/-- Only callers are answered: the events of all other steps have no `answered` write. -/
theorem Change.answered_eq_nil (h : Change j a step) (hact : ∀ k, a ≠ .act (.caller k)) :
    step.2.filterMap Event.answered? = [] := by
  cases h with
  | pop => unfold afterPop; split <;> rfl
  | record => unfold Journal.record; split <;> rfl
  | mark => unfold Journal.mark; split <;> rfl
  | @join s => unfold afterJoin stopOn Journal.advance; split <;> cases s <;> rfl
  | @push s t id first => unfold afterPush stopOn; split <;> cases first <;> rfl
  | acquire | submit | drain => exact absurd rfl (hact _)
  | gone _ _ hes =>
    refine List.filterMap_eq_nil_iff.mpr fun e he => ?_
    rcases hes e he with rfl | rfl <;> rfl
  | _ => rfl

/-- What a step does to the writes that are `pending`: it answers the first of one submitter, or
brings in a new one. -/
theorem Change.requests (h : Change j a step) :
    Requests j.pending a step.1.pending (step.2.filterMap Event.answered?) := by
  -- Only steps of callers, and new ones, have to do with what is `pending`.
  have hother (hact : ∀ k, a ≠ .act (.caller k)) (hsubmit : ∀ ids, a ≠ .submit ids)
      (hawait : a ≠ .awaitAll) :
      Requests j.pending a step.1.pending (step.2.filterMap Event.answered?) := by
    rw [h.answered_eq_nil hact, pending_of_callers_eq (h.callers_eq hact hsubmit hawait)]
    refine .quiet ?_
    cases a <;> first | rfl | exact absurd rfl (hsubmit _)
  cases h with
  | deliver => exact .quiet rfl
  | @acquire k id left answers first m r hcaller hvisit =>
    have hbefore : (if first then Caller.submitter .between (id :: left) answers
        else .submitter (.awaitingSlot id) left answers).pending? = some (id :: left) := by
      cases first <;> rfl
    -- A submitter that got the slot, or has to wait for it, still has its write ahead of it.
    rcases hvisit.slot_cases with ⟨g, rfl, -⟩ | ⟨e, rfl, -⟩ | ⟨rfl, -⟩
    · exact requests_of_same hcaller hbefore.symm rfl
    · exact requests_of_answer hcaller hbefore rfl
    · exact requests_of_same hcaller hbefore.symm rfl
  | @submit k id left answers first m r hcaller hvisit =>
    have hbefore : (Caller.submitter (if first then .admitted id else .awaitingRoom id) left
        answers).pending? = some (id :: left) := by
      cases first <;> rfl
    rcases hvisit.push_cases with ⟨rfl, -⟩ | ⟨rfl, -⟩ | ⟨rfl, -⟩
    · exact requests_of_answer hcaller hbefore rfl
    · exact requests_of_answer hcaller hbefore rfl
    · refine requests_of_same hcaller hbefore.symm ?_
      cases first <;> rfl
  | @drain k first m r hcaller hvisit =>
    cases r <;> exact requests_of_same hcaller rfl rfl
  | arrive =>
    rw [pending_call]
    exact .submit
  | await =>
    rw [pending_call, show [Caller.drainer .entering].filterMap Caller.pending? = [] from rfl,
      List.append_nil]
    exact .quiet rfl
  | _ => exact hother nofun nofun nofun

/-- There is a list of `pending` writes for each submitter. If there is no other submitter, what was
answered and what is pending is what was submitted. -/
theorem Run.answered (hrun : Run c as j es) :
    j.pending.length = (as.filterMap Action.submitted?).length ∧
      ((as.filterMap Action.submitted?).length ≤ 1 →
        es.filterMap Event.answered? ++ j.pending.flatten =
          (as.filterMap Action.submitted?).flatten) := by
  induction hrun with
  | start hstart =>
    obtain ⟨-, -, rfl, rfl⟩ := start_eq_ok hstart
    exact ⟨rfl, fun _ => rfl⟩
  | @step as j j' es es' a hrun hstep ih =>
    obtain ⟨hlength, horder⟩ := ih
    have hrequests := (change_of_step hrun.attended hstep).requests
    rw [List.filterMap_append, List.filterMap_append]
    revert hrequests
    generalize j'.pending = after, es'.filterMap Event.answered? = answered
    intro hrequests
    cases hrequests with
    | quiet ha =>
      rw [List.filterMap_cons_none ha, List.filterMap_nil, List.append_nil, List.append_nil]
      exact ⟨hlength, horder⟩
    | @answer k id left pre post hpending =>
      -- A sole submitter has no other before it or behind it.
      rw [show [Action.act (.caller k)].filterMap Action.submitted? = [] from rfl, List.append_nil]
      rw [hpending] at hlength horder
      simp only [List.length_append, List.length_cons] at hlength ⊢
      refine ⟨hlength, fun hone => ?_⟩
      obtain rfl : pre = [] := List.length_eq_zero_iff.mp (by omega)
      obtain rfl : post = [] := List.length_eq_zero_iff.mp (by omega)
      simpa using horder hone
    | @submit ids =>
      rw [show [Action.submit ids].filterMap Action.submitted? = [ids] from rfl]
      simp only [List.length_append, List.length_singleton]
      refine ⟨by omega, fun hone => ?_⟩
      have hnone : as.filterMap Action.submitted? = [] := List.length_eq_zero_iff.mp (by omega)
      have hold := horder (by omega)
      rw [hnone, List.flatten_nil, List.append_eq_nil_iff] at hold
      rw [hnone, hold.1, List.flatten_append, hold.2]
      rfl

/-- In an open journal nothing that has a slot is `refused` to a sole submitter. -/
theorem Run.not_refused (hrun : Run c as j es) (hopen : j.closing = .open)
    (hone : (as.filterMap Action.submitted?).length ≤ 1)
    (hids : ∀ id ∈ (as.filterMap Action.submitted?).flatten, id < c.maxRequests) (id : WriteId)
    (e : JournalError) : .refused id e ∉ es := by
  induction hrun with
  | start hstart =>
    obtain ⟨-, -, -, rfl⟩ := start_eq_ok hstart
    simp
  | @step as j j' es es' a hrun hstep ih =>
    have hopen' : j.closing = .open := (hrun.move hstep).closing_eq_open hopen
    rw [List.filterMap_append, List.length_append] at hone
    rw [List.filterMap_append, List.flatten_append] at hids
    have hids' := fun i hi => hids i (List.mem_append_left _ hi)
    rw [List.mem_append]
    rintro (hmem | hmem)
    · exact ih hopen' (by omega) hids' hmem
    · obtain ⟨k, left, answers, rfl, hrefused, -⟩ :=
        (change_of_step hrun.attended hstep).of_refused hrun hmem
      rcases hrefused.reason with hle | hdone
      · -- The write is pending, so it was submitted.
        have hpending : id :: left ∈ j.pending :=
          List.mem_filterMap.mpr ⟨_, List.mem_of_getElem? hrefused.caller, rfl⟩
        have hmem : id ∈ (as.filterMap Action.submitted?).flatten := by
          rw [← hrun.answered.2 (by omega)]
          exact List.mem_append_right _ (List.mem_flatten.mpr ⟨_, hpending, List.mem_cons_self⟩)
        exact absurd (hids' id hmem) (Nat.not_lt.mpr hle)
      · rw [hopen'] at hdone
        exact nomatch hdone

/-- In an open journal a sole submitter has its writes `accepted` in order. -/
theorem Run.accepted (hrun : Run c as j es) (hopen : j.closing = .open)
    (hsubmits : as.filterMap Action.submitted? = [ids]) (hids : ∀ id ∈ ids, id < c.maxRequests) :
    ∃ left, j.pending = [left] ∧ es.filterMap Event.accepted? ++ left = ids := by
  have hone : (as.filterMap Action.submitted?).length ≤ 1 := by rw [hsubmits]; exact Nat.le_refl 1
  obtain ⟨hlength, horder⟩ := hrun.answered
  rw [hsubmits] at hlength
  obtain ⟨left, hleft⟩ := List.length_eq_one_iff.mp hlength
  refine ⟨left, hleft, ?_⟩
  have hsame : es.filterMap Event.accepted? = es.filterMap Event.answered? := by
    refine List.filterMap_congr fun e he => ?_
    have hrefused := hrun.not_refused hopen hone (by simpa [hsubmits] using hids)
    cases e with
    | refused id error => exact absurd he (hrefused id error)
    | _ => rfl
  have horder := horder hone
  rw [hsubmits, hleft] at horder
  rw [hsame]
  simpa using horder

end Journal

end WriteAhead
