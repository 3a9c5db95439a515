import WriteAhead.Proofs.Journal.Closing
import WriteAhead.Proofs.Journal.Faults

/-!
# A request that is refused leaves no trace

A request is refused at once or not at all: because there is no slot for its write, or because the
journal has been shut down. It has not waited then, and nothing but its own answer is another. A
request that has come further is in an open journal, since a shutdown waits until it has returned;
so nobody who has a slot finds the first queue closed.

## Key results

- `Change.of_refused`: whatever refuses a request is the first look of the request
- `Run.refuses_exactly`: which requests are refused, and what a refusal changes
-/

namespace WriteAhead.Journal

variable {c : Config} {as : List Action} {j j' : Journal} {es es' : List Event} {a : Action}
  {step : Step} {k : Nat} {id : WriteId} {left : List WriteId}
  {answers : List (Option JournalError)} {e : JournalError}

/-- Why a write is refused. -/
def refusal (c : Config) (id : WriteId) : JournalError :=
  if c.maxRequests ≤ id then .invalidWriteId id (c.maxRequests - 1) else .shutDown

/-- What a refusal leaves: the caller has its answer and is between two requests again. -/
def refuse (j : Journal) (k : Nat) (left : List WriteId) (answers : List (Option JournalError))
    (e : JournalError) : Journal :=
  j.setCaller k (.submitter .between left (answers ++ [some e]))

/-- There is one slot for each write that the configuration allows: `maxRequests` of them. -/
theorem Run.size_eq (hrun : Run c as j es) : j.table.table.slots.size = c.maxRequests :=
  hrun.pipeline.blank.size_eq

/-! ## Requests that are refused -/

/-- The table refuses what it has no slot for, and everything after a shutdown, for the reason that
`refusal` names. -/
theorem Run.acquire_eq_refused (hrun : Run c as j es)
    (h : c.maxRequests ≤ id ∨ j.closing = .done) :
    j.table.table.acquire id = .refused (refusal c id) := by
  have hsize := hrun.size_eq
  unfold Table.acquire refusal Table.capacity Table.slot?
  rw [hsize]
  by_cases hid : c.maxRequests ≤ id
  · rw [Array.getElem?_eq_none (by omega), if_pos hid]
  · have hdone := h.resolve_left hid
    have hdown : j.table.table.isShutDown = true := by rw [hrun.orderly.shutDown, hdone]; rfl
    rw [Array.getElem?_eq_getElem (by omega), if_neg hid]
    simp only [hdown, if_true]

/-- The first look of a request that the table refuses changes nothing but its answer: it leaves
`refuse`. -/
theorem step_of_acquire_eq_refused
    (hcaller : j.callers[k]? = some (.submitter .between (id :: left) answers))
    (howed : j.deliver? (.caller k) = none) (hacquire : j.table.table.acquire id = .refused e) :
    j.step (.act (.caller k)) = some (j.refuse k left answers e, [.refused id e]) := by
  have henter : j.table.enter (.caller k) (.slot id) = (j.table, some (.refused e)) := by
    simp only [Table.Monitor.enter, Table.Monitor.attempt, hacquire]
  simp only [step, actorStep, howed, callerStep, hcaller, Option.bind_some, henter]
  rfl

/-! ## Nothing else is refused -/

/-- Before a request has its slot the table may refuse it, and for one of two reasons (`refusal`):
there is no slot, or it was shut down. -/
theorem Run.of_acquire_eq_refused (hrun : Run c as j es)
    (h : j.table.table.acquire id = .refused e) :
    (c.maxRequests ≤ id ∨ j.table.table.isShutDown = true) ∧ e = refusal c id := by
  have hsize := hrun.size_eq
  unfold refusal
  rcases Table.acquire_refused h with ⟨hnone, rfl⟩ | ⟨⟨s, hs⟩, hdown, rfl⟩
  · have hid : c.maxRequests ≤ id := hsize ▸ Array.getElem?_eq_none_iff.mp hnone
    rw [if_pos hid, Table.capacity, hsize]
    exact ⟨.inl hid, rfl⟩
  · have hid : id < c.maxRequests := hsize ▸ (Array.getElem?_eq_some_iff.mp hs).1
    rw [if_neg (Nat.not_le.mpr hid)]
    exact ⟨.inr hdown, rfl⟩

/-- Who is at `awaitingSlot` waits for a slot that there is. -/
theorem Run.lt_of_awaitingSlot (hrun : Run c as j es)
    (hcaller : j.callers[k]? = some (.submitter (.awaitingSlot id) left answers)) :
    id < c.maxRequests := by
  have hwant : j.tableWant? (.caller k) = some (.slot id) := by simp [tableWant?, hcaller]; rfl
  have hmem := (hrun.attended.table.mem_iff _ _).mpr hwant
  have hlt := hrun.waitsWithin _ hmem id rfl
  rwa [hrun.size_eq] at hlt

/-- A request that is past `between` is in an open journal, since a shutdown is called only where
nobody else is inside. -/
theorem Run.open_of_inside (hrun : Run c as j es) {point : Submission}
    (hcaller : j.callers[k]? = some (.submitter point left answers)) (hpoint : point ≠ .between) :
    j.closing = .open := by
  by_contra hopen
  exact hpoint (hrun.secluded.between hopen k point left answers hcaller)

/-- A request that is past `between` finds the first queue open and the table not shut down. -/
theorem Run.isOpen_of_inside (hrun : Run c as j es) {point : Submission}
    (hcaller : j.callers[k]? = some (.submitter point left answers)) (hpoint : point ≠ .between) :
    (j.queue .metadata).closed = false ∧ j.table.table.isShutDown = false := by
  have hopen := hrun.open_of_inside hcaller hpoint
  rw [hrun.orderly.closed, hrun.orderly.shutDown, hopen]
  exact ⟨rfl, rfl⟩

/-- A `first` look that is refused leaves the table as it is, waiters included. -/
theorem eq_of_refused {m : Table.Monitor Actor}
    (h : j.table.Visit (.caller k) (.slot id) true m (some (.refused e))) : m = j.table := by
  have hacquire := h.slot_refused
  obtain ⟨w, hlook, hattempt⟩ := h
  cases hlook
  simp only [Table.Monitor.attempt, hacquire, Prod.mk.injEq] at hattempt
  exact hattempt.1.symm

/-- A step that refuses a write is the first look of its request, and for one of the two reasons. -/
structure RefusedBy (c : Config) (j : Journal) (id : WriteId) (e : JournalError) (k : Nat)
    (left : List WriteId) (answers : List (Option JournalError)) : Prop where
  caller : j.callers[k]? = some (.submitter .between (id :: left) answers)
  reason : c.maxRequests ≤ id ∨ j.closing = .done
  error : e = refusal c id

/-- Whatever refuses a request is the first look of the request, and is `RefusedBy` one of the two
reasons. -/
theorem Change.of_refused (h : Change j a step) (hrun : Run c as j es)
    (hmem : .refused id e ∈ step.2) :
    ∃ k left answers, a = .act (.caller k) ∧ j.RefusedBy c id e k left answers ∧
      step = (j.refuse k left answers e, [.refused id e]) := by
  -- No other step has an event that refuses a write.
  cases h with
  | @acquire k i left answers first m r hcaller hvisit =>
    rcases hvisit.slot_cases with ⟨g, rfl, -⟩ | ⟨e', rfl, -⟩ | ⟨rfl, -⟩
    · simp [afterAcquire] at hmem
    · obtain ⟨rfl, rfl⟩ : id = i ∧ e = e' := by simpa [afterAcquire] using hmem
      obtain ⟨hreason, herror⟩ := hrun.of_acquire_eq_refused hvisit.slot_refused
      cases first with
      | true =>
        have hdone : c.maxRequests ≤ id ∨ j.closing = .done := by
          refine hreason.imp_right fun hdown => ?_
          by_contra hbusy
          rw [hrun.orderly.shutDown] at hdown
          cases hrun.secluded.away (Closing.ne_open_of_hasAborted hdown) hbusy k _ hcaller
        refine ⟨k, left, answers, rfl, ⟨hcaller, hdone, herror⟩, ?_⟩
        rw [eq_of_refused hvisit]
        rfl
      | false =>
        -- Who waits has a slot to wait for, and a shutdown waits for it to return.
        have hlt := hrun.lt_of_awaitingSlot hcaller
        have hopen := (hrun.isOpen_of_inside hcaller (by rintro ⟨⟩)).2
        rcases hreason with hle | hdown
        · exact absurd hlt (Nat.not_lt.mpr hle)
        · cases hdown.symm.trans hopen
    · simp [afterAcquire] at hmem
  | @submit k i left answers first m r hcaller hvisit =>
    rcases hvisit.push_cases with ⟨rfl, -⟩ | ⟨rfl, hclosed, -⟩ | ⟨rfl, -⟩
    · simp [afterSubmit] at hmem
    · have hopen := (hrun.isOpen_of_inside hcaller (by cases first <;> rintro ⟨⟩)).1
      cases hclosed.symm.trans hopen
    · cases first <;> simp [afterSubmit] at hmem
  | @pop s first m r =>
    cases r with
    | none => simp [afterPop] at hmem
    | some r => cases r <;> simp [afterPop] at hmem
  | @push s t i first m r =>
    cases r with
    | none => cases first <;> simp [afterPush] at hmem
    | some r => cases r <;> simp [afterPush, stopOn] at hmem
  | @join s i first m r =>
    cases r with
    | none => simp [afterJoin] at hmem
    | some r => cases r <;> cases s <;> simp [afterJoin, stopOn, advance, Stage.next] at hmem
  | @drain k first m r => cases r <;> simp [afterDrain] at hmem
  | record =>
    unfold Journal.record at hmem
    split at hmem <;> simp at hmem
  | mark =>
    unfold Journal.mark at hmem
    split at hmem <;> simp at hmem
  | gone hclosing hnot hes =>
    rcases hes _ hmem with heq | heq <;> cases heq
  | hand | notify | clientPanic | devicePanic | complete | drop | report =>
    simp [Journal.hand, Journal.notify] at hmem
  | deliver | close | abort | arrive | await | shutDown | shutDownAgain => cases hmem

/-! ## Answers -/

/-- Where a caller has one more of its `answers`, it is the caller that took the step. -/
private theorem answer_of_setCaller {point point' : Submission} {left₀ left' : List WriteId}
    {answers₀ : List (Option JournalError)} {i : Nat} {point₀ : Submission} {caller : Caller}
    (hcaller : j.callers[i]? = some (.submitter point₀ left₀ answers₀))
    (hbefore : j.callers[k]? = some (.submitter point left answers))
    (hafter : (j.callers.set i caller)[k]? =
      some (.submitter point' left' (answers ++ [some e]))) :
    i = k ∧ caller = .submitter point' left' (answers₀ ++ [some e]) := by
  rw [List.getElem?_set] at hafter
  split at hafter
  · rename_i hik
    subst hik
    rw [hcaller] at hbefore
    obtain ⟨-, -, rfl⟩ := Caller.submitter.inj (Option.some.inj hbefore)
    split at hafter
    · exact ⟨rfl, Option.some.inj hafter⟩
    · exact nomatch hafter
  · rw [hbefore] at hafter
    simp at hafter

/-- An answer that names a reason is that of a write that is `refused` on this step, with the event
that says so. -/
theorem Change.refused_of_answer {point point' : Submission} {left' : List WriteId}
    (h : Change j a step) (hbefore : j.callers[k]? = some (.submitter point left answers))
    (hafter : step.1.callers[k]? = some (.submitter point' left' (answers ++ [some e]))) :
    a = .act (.caller k) ∧ ∃ id, .refused id e ∈ step.2 := by
  have hsame (hcaller : step.1.callers[k]? = j.callers[k]?) :
      a = .act (.caller k) ∧ ∃ id, .refused id e ∈ step.2 := by
    rw [hcaller, hbefore] at hafter
    simp at hafter
  have hother (hact : ∀ i, a ≠ .act (.caller i)) (hsubmit : ∀ ids, a ≠ .submit ids)
      (hawait : a ≠ .awaitAll) : a = .act (.caller k) ∧ ∃ id, .refused id e ∈ step.2 :=
    hsame (by rw [h.callers_eq hact hsubmit hawait])
  cases h with
  | @acquire i id left₀ answers₀ first m r hcaller hvisit =>
    obtain ⟨point₀, left₁, hcaller⟩ : ∃ point₀ left₁,
        j.callers[i]? = some (.submitter point₀ left₁ answers₀) := by
      cases first <;> exact ⟨_, _, hcaller⟩
    rcases hvisit.slot_cases with ⟨g, rfl, -⟩ | ⟨e', rfl, -⟩ | ⟨rfl, -⟩
    · obtain ⟨-, heq⟩ := answer_of_setCaller hcaller hbefore hafter
      simp at heq
    · obtain ⟨rfl, heq⟩ := answer_of_setCaller hcaller hbefore hafter
      obtain ⟨-, -, rfl⟩ : Submission.between = point' ∧ left₀ = left' ∧ e' = e := by
        simpa using heq
      exact ⟨rfl, id, List.mem_singleton_self _⟩
    · obtain ⟨-, heq⟩ := answer_of_setCaller hcaller hbefore hafter
      simp at heq
  | @submit i id left₀ answers₀ first m r hcaller hvisit =>
    rcases hvisit.push_cases with ⟨rfl, -⟩ | ⟨rfl, -⟩ | ⟨rfl, -⟩
    · obtain ⟨-, heq⟩ := answer_of_setCaller hcaller hbefore hafter
      simp at heq
    · obtain ⟨rfl, heq⟩ := answer_of_setCaller hcaller hbefore hafter
      obtain ⟨-, -, rfl⟩ : Submission.between = point' ∧ left₀ = left' ∧
          JournalError.shutDown = e := by simpa using heq
      exact ⟨rfl, id, List.mem_singleton_self _⟩
    · obtain ⟨-, heq⟩ := answer_of_setCaller hcaller hbefore hafter
      simp at heq
  | @drain i first m r hcaller hvisit =>
    -- Nobody who waits for all writes requests one.
    have hne : i ≠ k := by
      rintro rfl
      rw [hcaller] at hbefore
      exact nomatch Option.some.inj hbefore
    cases r <;> exact hsame (List.getElem?_set_ne hne)
  | arrive | await =>
    have hlt : k < j.callers.length := (List.getElem?_eq_some_iff.mp hbefore).1
    exact hsame (List.getElem?_append_left hlt)
  | deliver => exact hsame rfl
  | _ => exact hother nofun nofun nofun

/-! ## Runs -/

/-- Which requests are refused, and what a refusal changes. -/
structure RefusesExactly (c : Config) (j : Journal) : Prop where
  /-- A request for which there is a reason is refused by its first look, once the last call of its
  caller has returned, and the look changes nothing but the answer. -/
  refused : ∀ (k : Nat) id left answers,
    j.callers[k]? = some (.submitter .between (id :: left) answers) →
    j.deliver? (.caller k) = none → c.maxRequests ≤ id ∨ j.closing = .done →
    j.step (.act (.caller k)) =
      some (j.refuse k left answers (refusal c id), [.refused id (refusal c id)])
  /-- A step that refuses a write is such a first look. -/
  only : ∀ a j' es id e, j.step a = some (j', es) → .refused id e ∈ es →
    ∃ k left answers, a = .act (.caller k) ∧ j.RefusedBy c id e k left answers ∧
      j' = j.refuse k left answers e ∧ es = [.refused id e]
  /-- So is a step on which a request is answered with a reason. -/
  answered : ∀ a j' es (k : Nat) point left answers point' left' e, j.step a = some (j', es) →
    j.callers[k]? = some (.submitter point left answers) →
    j'.callers[k]? = some (.submitter point' left' (answers ++ [some e])) →
    ∃ id, a = .act (.caller k) ∧ j.RefusedBy c id e k left' answers ∧
      j' = j.refuse k left' answers e ∧ es = [.refused id e]
  /-- A request begins before a shutdown or after it. -/
  pending : ∀ (k : Nat) id left answers,
    j.callers[k]? = some (.submitter .between (id :: left) answers) →
    j.closing = .open ∨ j.closing = .done
  /-- A request that has begun is in an open journal, whether it waits for its slot or has it. -/
  inside : ∀ (k : Nat) point left answers,
    j.callers[k]? = some (.submitter point left answers) → point ≠ .between →
    j.closing = .open ∧ (j.queue .metadata).closed = false ∧ j.table.table.isShutDown = false

/-- In every state a request is refused at once or not at all, and a refusal leaves no trace
(`RefusesExactly`). -/
theorem Run.refuses_exactly (hrun : Run c as j es) : j.RefusesExactly c := by
  constructor
  case refused =>
    intro k id left answers hcaller howed hreason
    exact step_of_acquire_eq_refused hcaller howed (hrun.acquire_eq_refused hreason)
  case only =>
    intro a j' es id e hstep hmem
    obtain ⟨k, left, answers, ha, hrefused, heq⟩ :=
      (change_of_step hrun.attended hstep).of_refused hrun hmem
    obtain ⟨rfl, rfl⟩ := Prod.mk.inj heq
    exact ⟨k, left, answers, ha, hrefused, rfl, rfl⟩
  case answered =>
    intro a j' es k point left answers point' left' e hstep hbefore hafter
    have hchange := change_of_step hrun.attended hstep
    obtain ⟨rfl, id, hmem⟩ := hchange.refused_of_answer hbefore hafter
    obtain ⟨i, left₀, answers₀, ha, hrefused, heq⟩ := hchange.of_refused hrun hmem
    obtain ⟨rfl, rfl⟩ := Prod.mk.inj heq
    obtain rfl : i = k := by simpa [eq_comm] using ha
    -- The caller is the one that was refused, and what it has left is what the refusal left it.
    have hcaller := hrefused.caller
    rw [hbefore] at hcaller
    obtain ⟨-, -, rfl⟩ := Caller.submitter.inj (Option.some.inj hcaller)
    obtain ⟨-, heq⟩ := answer_of_setCaller hbefore hbefore hafter
    obtain ⟨-, rfl, -⟩ := Caller.submitter.inj heq
    exact ⟨id, rfl, hrefused, rfl, rfl⟩
  case pending =>
    intro k id left answers hcaller
    by_contra hne
    obtain ⟨hopen, hbusy⟩ := not_or.mp hne
    have hover := hrun.secluded.away hopen hbusy k _ hcaller
    exact nomatch hover
  case inside =>
    intro k point left answers hcaller hpoint
    exact ⟨hrun.open_of_inside hcaller hpoint, hrun.isOpen_of_inside hcaller hpoint⟩

/-- A shutdown of a journal in which no worker has a write. -/
def idleShutdown : List Action :=
  [.shutDown] ++ List.replicate 10 (.act .closer) ++
    Stage.all.flatMap fun s => [.act (.worker s), .act .closer]

/-- A write that has no slot is refused before a shutdown, and one that has a slot after it. -/
theorem refuses_exactly_after_shutdown :
    ∃ j es, Run { bufferSize := 1, maxRequests := 1 }
        ([.submit [5], .act (.caller 0)] ++ idleShutdown ++ [.submit [0]]) j es ∧
      j.RefusesExactly { bufferSize := 1, maxRequests := 1 } ∧ j.closing = .done ∧
      j.callers[0]? = some (.submitter .between [] [some (.invalidWriteId 5 0)]) ∧
      j.step (.act (.caller 1)) =
        some (j.refuse 1 [] [] .shutDown, [.refused 0 .shutDown]) := by
  have hend : (trace? { bufferSize := 1, maxRequests := 1 }
      ([.submit [5], .act (.caller 0)] ++ idleShutdown ++ [.submit [0]])).map
        (fun r => (r.1.closing, r.1.callers, r.1.deliver? (.caller 1))) =
      some (.done, [.submitter .between [] [some (.invalidWriteId 5 0)],
        .submitter .between [0] []], none) := by
    decide +kernel
  obtain ⟨⟨j, es⟩, htrace, heq⟩ := Option.map_eq_some_iff.mp hend
  simp only [Prod.mk.injEq] at heq
  obtain ⟨hclosing, hcallers, howed⟩ := heq
  have hrun := Run.of_trace? htrace
  have hrefuses := hrun.refuses_exactly
  have hstep := hrefuses.refused 1 0 [] [] (by rw [hcallers]; rfl) howed (.inr hclosing)
  exact ⟨j, es, hrun, hrefuses, hclosing, by rw [hcallers]; rfl, hstep⟩

end WriteAhead.Journal
