import WriteAhead.Proofs.Table.Effects

/-!
# Reports may come in any order

Single reports do not commute in what they are told: one of them makes a join hold, one of them
releases the slot, and those that come after a release are for nobody. What they leave behind is the
same in every order. `Slot.report` is what a report does to a slot and `Slot.outcome` what it is
told; two reports commute in the first and in how many of them are refused. While the checkpoint
stage is not done with an occupant nothing releases the slot, and then the two orders of two reports
differ only in which of them is told what.

## Key results

- `Slot.report_comm`, `Slot.takes_comm`: two reports in either order
- `Slot.outcomes_comm`: the same for what they are told, if nothing can release the slot
- `Monitor.Run.reports_commute`: any two orders of any number of reports
-/

namespace WriteAhead

namespace Table

/-- A report of a completed operation, as it comes to a table. -/
structure Report where
  id : WriteId
  op : Operation
  generation : Option Generation
  deriving DecidableEq, Repr

/-- Whether a report with this outcome was refused. -/
def Outcome.isRefused : Outcome → Bool
  | .stale | .duplicate => true
  | .pending | .joined _ => false

/-- An outcome that is no refusal counts neither in `stale` nor in `duplicate`. -/
theorem Outcome.count_of_noted {o : Outcome} (h : o.isRefused = false) :
    [o].count .stale = 0 ∧ [o].count .duplicate = 0 := by
  cases o with
  | pending | joined => exact ⟨rfl, rfl⟩
  | stale | duplicate => exact nomatch h

/-- Every refusal is of one of two kinds, `stale` or `duplicate`. -/
theorem Outcome.countP_isRefused (told : List Outcome) :
    told.countP (·.isRefused) = told.count .stale + told.count .duplicate := by
  induction told with
  | nil => rfl
  | cons o told ih =>
    simp only [List.countP_cons, List.count_cons, ih]
    cases o <;> simp [isRefused] <;> omega

end Table

open Table (Report Outcome)

theorem OpSet.insert_comm (c : OpSet) (op op' : Operation) :
    (c.insert op).insert op' = (c.insert op').insert op := by
  ext o
  simp only [contains_insert, Bool.or_assoc, Bool.or_comm (decide (o = op))]

/-! ## Reports to one slot -/

namespace Slot

variable {s : Slot} {r r' : Report}

/-- Whether a report is noted: it is for the occupant and new to it. -/
def takes (s : Slot) (r : Report) : Bool := s.accepts r.generation && !s.completed.contains r.op

/-- The slot after a report. -/
def report (s : Slot) (r : Report) : Slot := if s.takes r then (s.complete r.op).settle else s

/-- What a report is told. -/
def outcome (s : Slot) (r : Report) : Outcome :=
  if !s.accepts r.generation then .stale
  else if s.completed.contains r.op then .duplicate
  else if (s.completed.insert r.op).containsAll r.op.stage.join then .joined r.op.stage
  else .pending

/-- A slot that is in use after `settle` was not released by it. -/
theorem settle_of_inUse (h : s.settle.inUse = true) : s.settle = s := by
  cases hdrained : s.inUse && s.isDrained with
  | true =>
    rw [settle, if_pos hdrained] at h
    cases h
  | false => rw [settle, hdrained, if_neg Bool.false_ne_true]

/-- A report that the slot `takes` is completed there, and may release the slot. -/
theorem report_of_takes (h : s.takes r = true) : s.report r = (s.complete r.op).settle := if_pos h

/-- A report that the slot does not take (`takes`) leaves it as it is. -/
theorem report_of_refused (h : s.takes r = false) : s.report r = s := by simp [report, h]

theorem accepts_of_takes (h : s.takes r = true) : s.accepts r.generation = true :=
  (Bool.and_eq_true_iff.mp h).1

theorem lacks_of_takes (h : s.takes r = true) : s.completed.contains r.op = false := by
  simpa using (Bool.and_eq_true_iff.mp h).2

/-- The `outcome` of a report is a refusal exactly if the slot does not take it. -/
theorem isRefused_outcome (s : Slot) (r : Report) : (s.outcome r).isRefused = !s.takes r := by
  unfold outcome takes
  cases s.accepts r.generation with
  | false => rfl
  | true =>
    cases s.completed.contains r.op with
    | true => rfl
    | false => cases (s.completed.insert r.op).containsAll r.op.stage.join <;> rfl

/-- A report that is noted is judged by the join of its stage: `joined` if that holds now, else
`pending`. -/
theorem outcome_of_takes (h : s.takes r = true) : s.outcome r =
    if (s.completed.insert r.op).containsAll r.op.stage.join then .joined r.op.stage
    else .pending := by
  simp [outcome, accepts_of_takes h, lacks_of_takes h]

@[simp] theorem accepts_complete (s : Slot) (op : Operation) (g : Option Generation) :
    (s.complete op).accepts g = s.accepts g := rfl

@[simp] theorem completed_complete (s : Slot) (op : Operation) :
    (s.complete op).completed = s.completed.insert op := rfl

/-- Each report takes one from `pendingIo`, so all of them drain the slot alike. -/
theorem isDrained_complete (s : Slot) (op op' : Operation) :
    (s.complete op).isDrained = (s.complete op').isDrained := rfl

/-- A report that drains the slot leaves it `reset`, free for whoever comes next. -/
theorem report_of_drained (h : s.takes r = true) (hdrained : (s.complete r.op).isDrained = true) :
    s.report r = s.reset := by
  have huse : s.inUse = true := inUse_of_accepts (accepts_of_takes h)
  rw [report_of_takes h, settle_of_drained (s := s.complete r.op) huse hdrained]
  rfl

theorem report_of_not_drained (h : s.takes r = true)
    (hdrained : (s.complete r.op).isDrained = false) : s.report r = s.complete r.op := by
  rw [report_of_takes h, settle_of_not_drained hdrained]

/-- A free slot, as `reset` leaves it, takes no report. -/
theorem takes_reset (s : Slot) (r : Report) : s.reset.takes r = false := rfl

/-- After `complete op` a slot takes the same reports as before, except for `op`. -/
theorem takes_complete (s : Slot) (op : Operation) (r : Report) :
    (s.complete op).takes r = (s.takes r && decide (r.op ≠ op)) := by
  rw [takes, takes, accepts_complete, completed_complete, OpSet.contains_insert, Bool.not_or,
    Bool.and_assoc, decide_not]

theorem takes_complete_of_op_ne {op : Operation} (h : s.takes r = true) (hop : r.op ≠ op) :
    (s.complete op).takes r = true := by
  simp [takes_complete, h, hop]

/-- What a slot does not take it does not take after any other `report` either. -/
theorem takes_report_of_refused (h : s.takes r' = false) : (s.report r).takes r' = false := by
  cases htakes : s.takes r with
  | false => rwa [report_of_refused htakes]
  | true =>
    cases hdrained : (s.complete r.op).isDrained with
    | true => rw [report_of_drained htakes hdrained, takes_reset]
    | false => rw [report_of_not_drained htakes hdrained, takes_complete, h, Bool.false_and]

/-- Of two reports of one operation the second is not taken. -/
theorem takes_report_of_op_eq (htakes : s.takes r = true) (hop : r'.op = r.op) :
    (s.report r).takes r' = false := by
  cases hdrained : (s.complete r.op).isDrained with
  | true => rw [report_of_drained htakes hdrained, takes_reset]
  | false =>
    rw [report_of_not_drained htakes hdrained, takes_complete]
    simp [hop]

theorem complete_comm (s : Slot) (op op' : Operation) :
    (s.complete op).complete op' = (s.complete op').complete op := by
  simp only [complete, s.completed.insert_comm op op']

/-- By two of `report` the slot becomes the same in either order: together they complete both, or
the first of them releases the slot and the second is for nobody. -/
theorem report_comm (s : Slot) (r r' : Report) :
    (s.report r).report r' = (s.report r').report r := by
  cases htakes : s.takes r with
  | false => rw [report_of_refused htakes, report_of_refused (takes_report_of_refused htakes)]
  | true =>
    cases htakes' : s.takes r' with
    | false =>
      rw [report_of_refused htakes', report_of_refused (takes_report_of_refused htakes')]
    | true =>
      by_cases hop : r'.op = r.op
      · -- Whichever comes second is refused.
        rw [report_of_refused (takes_report_of_op_eq htakes hop),
          report_of_refused (takes_report_of_op_eq htakes' hop.symm), report_of_takes htakes,
          report_of_takes htakes', hop]
      cases hdrained : (s.complete r.op).isDrained with
      | true =>
        -- Whichever comes first releases the slot.
        rw [report_of_drained htakes hdrained,
          report_of_drained htakes' ((isDrained_complete s _ _).trans hdrained),
          report_of_refused (takes_reset s r'), report_of_refused (takes_reset s r)]
      | false =>
        rw [report_of_not_drained htakes hdrained,
          report_of_not_drained htakes' ((isDrained_complete s _ _).trans hdrained),
          report_of_takes (takes_complete_of_op_ne htakes' hop),
          report_of_takes (takes_complete_of_op_ne htakes (Ne.symm hop)), complete_comm]

/-- As many of two reports are taken (`takes`) in either order, though not the same ones. -/
theorem takes_comm (s : Slot) (r r' : Report) :
    (s.takes r).toNat + ((s.report r).takes r').toNat =
      (s.takes r').toNat + ((s.report r').takes r).toNat := by
  cases htakes : s.takes r with
  | false => simp [report_of_refused htakes, takes_report_of_refused htakes]
  | true =>
    cases htakes' : s.takes r' with
    | false => simp [report_of_refused htakes', htakes, takes_report_of_refused htakes']
    | true =>
      -- Two reports of one operation: whichever is first is taken.
      by_cases hop : r'.op = r.op
      · rw [takes_report_of_op_eq htakes hop, takes_report_of_op_eq htakes' hop.symm]
      -- Of two operations the first may release the slot, and then the other is refused in either
      -- order.
      cases hdrained : (s.complete r.op).isDrained with
      | true =>
        rw [report_of_drained htakes hdrained,
          report_of_drained htakes' ((isDrained_complete s _ _).trans hdrained),
          takes_reset, takes_reset]
      | false =>
        rw [report_of_not_drained htakes hdrained,
          report_of_not_drained htakes' ((isDrained_complete s _ _).trans hdrained),
          takes_complete, takes_complete, htakes, htakes']
        simp [hop, Ne.symm hop]

/-- A slot with `inUse` after a report was not released by it. -/
theorem report_of_inUse (h : (s.report r).inUse = true) :
    s.report r = if s.takes r then s.complete r.op else s := by
  unfold report at h ⊢
  split
  · rename_i htakes
    rw [if_pos htakes] at h
    exact settle_of_inUse h
  · rfl

/-! ## While nothing can release the slot -/

/-- While `checkpointDone` is not set, a report releases nothing. -/
theorem report_of_undone (hundone : s.checkpointDone = false) :
    s.report r = if s.takes r then s.complete r.op else s := by
  unfold report
  rw [settle_of_not_drained]
  simp [isDrained, complete, hundone]

theorem checkpointDone_report (hundone : s.checkpointDone = false) :
    (s.report r).checkpointDone = false := by
  rw [report_of_undone hundone]
  split <;> exact hundone

/-- A report that is not taken has the same `outcome` after any other report. -/
theorem outcome_report_of_refused (hundone : s.checkpointDone = false)
    (h : s.takes r' = false) : (s.report r).outcome r' = s.outcome r' := by
  rw [report_of_undone hundone]
  split
  · cases haccepts : s.accepts r'.generation with
    | false => simp [outcome, haccepts]
    | true =>
      have hcontains : s.completed.contains r'.op = true := by simpa [takes, haccepts] using h
      simp [outcome, haccepts, hcontains]
  · rfl

/-- A report has the same `outcome` before and after one of another stage, of which its join knows
nothing. -/
theorem outcome_report_of_stage_ne (hundone : s.checkpointDone = false)
    (hstage : r.op.stage ≠ r'.op.stage) : (s.report r).outcome r' = s.outcome r' := by
  have hop : r'.op ≠ r.op := fun heq => hstage (by rw [heq])
  rw [report_of_undone hundone]
  split
  · have hjoin : ((s.completed.insert r.op).insert r'.op).containsAll r'.op.stage.join =
        (s.completed.insert r'.op).containsAll r'.op.stage.join := by
      rw [OpSet.insert_comm]
      exact Table.Monitor.containsAll_insert_join hstage
    simp only [outcome, accepts_complete, completed_complete, hjoin, OpSet.contains_insert, hop,
      decide_false, Bool.or_false]
  · rfl

/-- While another operation of its stage is still to be reported, a report is told `pending`. -/
theorem outcome_of_other_lacks (htakes : s.takes r = true) (htakes' : s.takes r' = true)
    (hop : r'.op ≠ r.op) (hstage : r.op.stage = r'.op.stage) : s.outcome r = .pending := by
  rw [outcome_of_takes htakes, if_neg]
  intro hjoin
  have hcontains := OpSet.containsAll_iff.mp hjoin r'.op (by simp [Stage.contains_join, hstage])
  simp [lacks_of_takes htakes', hop] at hcontains

/-- Two reports have the same `outcome` in either order, except that they may change places. Within
a stage it is the second that may be told of the join. -/
theorem outcomes_comm (hundone : s.checkpointDone = false) (r r' : Report) :
    [s.outcome r, (s.report r).outcome r'].Perm [s.outcome r', (s.report r').outcome r] := by
  cases htakes : s.takes r with
  | false =>
    rw [report_of_refused htakes, outcome_report_of_refused hundone htakes]
    exact .swap _ _ _
  | true =>
    cases htakes' : s.takes r' with
    | false =>
      rw [report_of_refused htakes', outcome_report_of_refused hundone htakes']
      exact .swap _ _ _
    | true =>
      -- Both are taken, so each can be told of its join only.
      by_cases hstage : r.op.stage = r'.op.stage
      · -- Within a stage the first is told alike, whichever it is, and so is the second.
        have hfirst : s.outcome r = s.outcome r' := by
          by_cases hop : r'.op = r.op
          · rw [outcome_of_takes htakes, outcome_of_takes htakes', hop]
          · rw [outcome_of_other_lacks htakes htakes' hop hstage,
              outcome_of_other_lacks htakes' htakes (Ne.symm hop) hstage.symm]
        have hsecond : (s.report r).outcome r' = (s.report r').outcome r := by
          rw [report_of_undone hundone, report_of_undone hundone, if_pos htakes, if_pos htakes']
          by_cases hop : r'.op = r.op
          · simp [outcome, hop, accepts_of_takes htakes, accepts_of_takes htakes']
          · rw [outcome_of_takes (takes_complete_of_op_ne htakes' hop),
              outcome_of_takes (takes_complete_of_op_ne htakes (Ne.symm hop)),
              completed_complete, completed_complete, OpSet.insert_comm, hstage]
        rw [hfirst, hsecond]
      · rw [outcome_report_of_stage_ne hundone hstage,
          outcome_report_of_stage_ne hundone (Ne.symm hstage)]
        exact .swap _ _ _

end Slot

namespace Table

/-! ## Reports to the slots of a table -/

section

variable (slots : Array Slot) (r r' : Report)

/-- The slots after a report. -/
def reportTo : Array Slot := slots.modify r.id (·.report r)

/-- What a report is told; one for which there is no slot is for nobody. -/
def outcomeAt : Outcome := slots[r.id]?.elim .stale (·.outcome r)

/-- What reports are told that come one after the other. -/
def outcomesAt (slots : Array Slot) : List Report → List Outcome
  | [] => []
  | r :: rs => outcomeAt slots r :: outcomesAt (reportTo slots r) rs

variable {slots r r'}

theorem getElem?_reportTo (i : Nat) : (reportTo slots r)[i]? =
    if r.id = i then slots[i]?.map (·.report r) else slots[i]? := Array.getElem?_modify

theorem getElem?_reportTo_of_ne {i : Nat} (h : r.id ≠ i) : (reportTo slots r)[i]? = slots[i]? := by
  rw [getElem?_reportTo, if_neg h]

/-- By two of `reportTo` the slots become the same in either order. -/
theorem reportTo_comm (slots : Array Slot) (r r' : Report) :
    reportTo (reportTo slots r) r' = reportTo (reportTo slots r') r := by
  apply Array.ext_getElem?
  intro i
  simp only [getElem?_reportTo]
  split
  · split
    · rw [Option.map_map, Option.map_map]
      exact congrFun (congrArg Option.map (funext fun s => Slot.report_comm s r r')) _
    · rfl
  · rfl

/-- A report to another slot does not change `outcomeAt` for this one. -/
theorem outcomeAt_reportTo_of_ne (h : r.id ≠ r'.id) :
    outcomeAt (reportTo slots r) r' = outcomeAt slots r' := by
  rw [outcomeAt, getElem?_reportTo_of_ne h, outcomeAt]

/-- Two reports to one slot are told its `outcome`, or are both for nobody. -/
theorem outcomesAt_of_id_eq (slots : Array Slot) (h : r.id = r'.id) :
    (∃ s, slots[r.id]? = some s ∧
      outcomesAt slots [r, r'] = [s.outcome r, (s.report r).outcome r'] ∧
      outcomesAt slots [r', r] = [s.outcome r', (s.report r').outcome r]) ∨
    outcomesAt slots [r, r'] = outcomesAt slots [r', r] := by
  simp only [outcomesAt, outcomeAt, getElem?_reportTo, h, if_true]
  cases slots[r'.id]? with
  | none => exact .inr rfl
  | some s => exact .inl ⟨s, rfl, rfl, rfl⟩

/-- As many of two reports are refused (`isRefused`) in either order. -/
theorem countP_isRefused_comm (slots : Array Slot) (r r' : Report) :
    (outcomesAt slots [r, r']).countP (·.isRefused) =
      (outcomesAt slots [r', r]).countP (·.isRefused) := by
  by_cases hid : r.id = r'.id
  · -- In one slot as many are noted in either order, so as many are refused.
    rcases outcomesAt_of_id_eq slots hid with ⟨s, -, hrr', hr'r⟩ | heq
    · have htakes := s.takes_comm r r'
      rw [hrr', hr'r]
      simp only [List.countP_cons, List.countP_nil, Slot.isRefused_outcome]
      revert htakes
      cases s.takes r <;> cases s.takes r' <;> cases (s.report r).takes r' <;>
        cases (s.report r').takes r <;> decide
    · rw [heq]
  · simp only [outcomesAt, outcomeAt_reportTo_of_ne hid, outcomeAt_reportTo_of_ne (Ne.symm hid)]
    exact (List.Perm.swap _ _ _).countP_eq _

/-- No slot that is reported on has the mark of the checkpoint stage. -/
def Undone (slots : Array Slot) (rs : List Report) : Prop :=
  ∀ r ∈ rs, ∀ s, slots[r.id]? = some s → s.checkpointDone = false

/-- After a report the slots still have no `checkpointDone`. -/
theorem Undone.reportTo {rs : List Report} (h : Undone slots (r :: rs)) :
    Undone (reportTo slots r) rs := by
  intro r' hmem s hs
  rw [getElem?_reportTo] at hs
  split at hs
  · obtain ⟨s₀, hs₀, rfl⟩ := Option.map_eq_some_iff.mp hs
    exact Slot.checkpointDone_report (h r' (List.mem_cons_of_mem _ hmem) s₀ hs₀)
  · exact h r' (List.mem_cons_of_mem _ hmem) s hs

theorem Undone.perm {rs rs' : List Report} (h : Undone slots rs) (hperm : rs.Perm rs') :
    Undone slots rs' := fun r hmem => h r (hperm.mem_iff.mpr hmem)

/-- Two reports are told the same in either order, if they cannot release a slot (`Undone`). -/
theorem outcomesAt_comm (h : Undone slots [r, r']) :
    (outcomesAt slots [r, r']).Perm (outcomesAt slots [r', r]) := by
  by_cases hid : r.id = r'.id
  · rcases outcomesAt_of_id_eq slots hid with ⟨s, hs, hrr', hr'r⟩ | heq
    · rw [hrr', hr'r]
      exact Slot.outcomes_comm (h r List.mem_cons_self s hs) r r'
    · rw [heq]
  · simp only [outcomesAt, outcomeAt_reportTo_of_ne hid, outcomeAt_reportTo_of_ne (Ne.symm hid)]
    exact .swap _ _ _

end

/-! ## Any number of reports -/

variable {slots : Array Slot} {rs rs' : List Report}

/-- Reports leave the same slots in every order, since any two do by `reportTo_comm`. -/
theorem foldl_reportTo_perm (h : rs.Perm rs') (slots : Array Slot) :
    rs.foldl reportTo slots = rs'.foldl reportTo slots :=
  have : RightCommutative reportTo := ⟨reportTo_comm⟩
  h.foldl_eq slots

/-- As many reports are refused in every order, since as many of any two are by
`countP_isRefused_comm`. -/
theorem countP_isRefused_perm (h : rs.Perm rs') (slots : Array Slot) :
    (outcomesAt slots rs).countP (·.isRefused) = (outcomesAt slots rs').countP (·.isRefused) := by
  induction h generalizing slots with
  | nil => rfl
  | cons r _ ih => simp only [outcomesAt, List.countP_cons, ih]
  -- The two reports that change places leave the same slots to all others.
  | swap r r' rs =>
    have hpair := countP_isRefused_comm slots r' r
    simp only [outcomesAt, List.countP_cons, List.countP_nil] at hpair ⊢
    rw [reportTo_comm slots r' r]
    omega
  | trans _ _ ih ih' => exact (ih slots).trans (ih' slots)

/-- Reports are told the same in every order, if they cannot release a slot (`Undone`). -/
theorem outcomesAt_perm (h : rs.Perm rs') (hundone : Undone slots rs) :
    (outcomesAt slots rs).Perm (outcomesAt slots rs') := by
  induction h generalizing slots with
  | nil => rfl
  | cons r _ ih => exact (ih hundone.reportTo).cons _
  | swap r r' rs =>
    have hfirst : Undone slots [r', r] := fun r₀ hmem => hundone r₀ (List.mem_append_left rs hmem)
    simp only [outcomesAt, reportTo_comm slots r' r]
    exact (outcomesAt_comm hfirst).append_right (outcomesAt (reportTo (reportTo slots r) r') rs)
  | trans hperm _ ih ih' => exact (ih hundone).trans (ih' (hundone.perm hperm))

/-! ## The table that takes them -/

/-- What a report is told, and what it leaves in the slots and in the counts of refusals. -/
structure Recorded (t t' : Table) (r : Report) (told : Outcome) : Prop where
  told_eq : told = outcomeAt t.slots r
  slots_eq : t'.slots = reportTo t.slots r
  stale_eq : t'.stale = t.stale + [told].count .stale
  duplicate_eq : t'.duplicate = t.duplicate + [told].count .duplicate

/-- A report that its slot does not take changes no slot in `reportTo`. -/
theorem reportTo_of_refused {r : Report} (h : ∀ s, slots[r.id]? = some s → s.takes r = false) :
    reportTo slots r = slots := by
  apply Array.ext_getElem?
  intro i
  rw [getElem?_reportTo]
  split
  · rename_i hid
    subst hid
    cases hs : slots[r.id]? with
    | none => rfl
    | some s => exact congrArg some (Slot.report_of_refused (h s hs))
  · rfl

/-- A `tryRelease` counts nothing as `stale` or `duplicate`. -/
theorem tryRelease_counts (t : Table) (id : WriteId) :
    (t.tryRelease id).1.stale = t.stale ∧ (t.tryRelease id).1.duplicate = t.duplicate := by
  unfold tryRelease
  split
  · exact ⟨rfl, rfl⟩
  · split <;> exact ⟨rfl, rfl⟩

/-- A report that a slot takes is told what the slot says, and `recordCompletion` counts no
refusal. -/
private theorem recorded_of_takes {t t' : Table} {r : Report} {v : Verdict} {s : Slot}
    (h : t.recordCompletion r.id r.op r.generation = (t', v)) (hs : t.slot? r.id = some s)
    (htakes : s.takes r = true) : Recorded t t' r (v.outcome r.op) := by
  have haccepts := Slot.accepts_of_takes htakes
  have hlacks := Slot.lacks_of_takes htakes
  rcases recordCompletion_cases h with ⟨-, -, -, -, hknown⟩ | ⟨s', -, -, rfl, hrep⟩
  · exact absurd (hknown s hs haccepts) (by simp [hlacks])
  obtain rfl : s = s' := Option.some.inj (hs.symm.trans hrep.old)
  have htold : (Verdict.ofSlot s r.op).outcome r.op = s.outcome r := by
    rw [Slot.outcome_of_takes htakes]
    rfl
  have hcounts : t'.stale = t.stale ∧ t'.duplicate = t.duplicate := by
    simp only [recordCompletion, hs, haccepts, hlacks, Bool.not_true, Bool.false_eq_true,
      if_false] at h
    rw [← (Prod.mk.inj h).1]
    exact tryRelease_counts _ _
  have hnoted : (s.outcome r).isRefused = false := by
    rw [Slot.isRefused_outcome, htakes]
    rfl
  obtain ⟨hstale, hduplicate⟩ := Outcome.count_of_noted hnoted
  rw [htold]
  constructor
  case told_eq =>
    rw [slot?] at hs
    rw [outcomeAt, hs]
    rfl
  case slots_eq =>
    rw [hrep.slots_eq, ← Slot.report_of_takes htakes]
    exact (slots_modify hs (·.report r)).symm
  case stale_eq => rw [hcounts.1, hstale, Nat.add_zero]
  case duplicate_eq => rw [hcounts.2, hduplicate, Nat.add_zero]

/-- A report on a table is one to its slots, `Recorded`, whether it is noted or refused. -/
theorem recordCompletion_recorded {t t' : Table} {r : Report} {v : Verdict}
    (h : t.recordCompletion r.id r.op r.generation = (t', v)) :
    Recorded t t' r (v.outcome r.op) := by
  cases hs : t.slot? r.id with
  | none =>
    simp only [recordCompletion, hs] at h
    obtain ⟨rfl, rfl⟩ := Prod.mk.inj h
    rw [slot?] at hs
    exact ⟨by rw [outcomeAt, hs]; rfl, (reportTo_of_refused (by simp [hs])).symm, rfl, rfl⟩
  | some s =>
    cases htakes : s.takes r with
    | true => exact recorded_of_takes h hs htakes
    | false =>
      have hslot : t.slots[r.id]? = some s := hs
      have hsame : reportTo t.slots r = t.slots := reportTo_of_refused (by simp [hslot, htakes])
      simp only [recordCompletion, hs] at h
      -- Refused for the generation, or because the operation had completed.
      cases haccepts : s.accepts r.generation with
      | false =>
        simp only [haccepts, Bool.not_false, if_true] at h
        obtain ⟨rfl, rfl⟩ := Prod.mk.inj h
        exact ⟨by simp [outcomeAt, hslot, Slot.outcome, haccepts, Verdict.outcome], hsame.symm,
          rfl, rfl⟩
      | true =>
        have hcontains : s.completed.contains r.op = true := by
          simpa [Slot.takes, haccepts] using htakes
        simp only [haccepts, hcontains, Bool.not_true, Bool.false_eq_true, if_false, if_true] at h
        obtain ⟨rfl, rfl⟩ := Prod.mk.inj h
        exact ⟨by simp [outcomeAt, hslot, Slot.outcome, haccepts, hcontains, Verdict.outcome],
          hsame.symm, rfl, rfl⟩

namespace Monitor

variable {κ : Type}

/-- Takes reports one after the other; yields what each is told. -/
def recordAll (m : Monitor κ) : List Report → Monitor κ × List Outcome
  | [] => (m, [])
  | r :: rs =>
    let (m', v) := m.recordCompletion r.id r.op r.generation
    let (m'', told) := m'.recordAll rs
    (m'', v.outcome r.op :: told)

/-- The slots and the counts of refusals that `recordAll` leaves, and what the reports are told. -/
theorem recordAll_eq (m : Monitor κ) (rs : List Report) :
    (m.recordAll rs).2 = outcomesAt m.table.slots rs ∧
      (m.recordAll rs).1.table.slots = rs.foldl reportTo m.table.slots ∧
      (m.recordAll rs).1.table.stale = m.table.stale + (m.recordAll rs).2.count .stale ∧
      (m.recordAll rs).1.table.duplicate =
        m.table.duplicate + (m.recordAll rs).2.count .duplicate := by
  -- Induction on the reports, with the monitor that each leaves.
  induction rs generalizing m with
  | nil => exact ⟨rfl, rfl, rfl, rfl⟩
  | cons r rs ih =>
    cases hreport : m.recordCompletion r.id r.op r.generation with
    | mk m' v =>
      obtain ⟨htold, hslots, hstale, hduplicate⟩ :=
        recordCompletion_recorded (recordCompletion_table hreport)
      obtain ⟨htold', hslots', hstale', hduplicate'⟩ := ih m'
      have hall : m.recordAll (r :: rs) =
          ((m'.recordAll rs).1, v.outcome r.op :: (m'.recordAll rs).2) := by
        simp only [recordAll, hreport]
      rw [hall]
      refine ⟨?_, ?_, ?_, ?_⟩
      · rw [htold', hslots, outcomesAt, ← htold]
      · rw [hslots', hslots, List.foldl_cons]
      · rw [hstale', hstale, Nat.add_assoc, ← List.count_append]
        rfl
      · rw [hduplicate', hduplicate, Nat.add_assoc, ← List.count_append]
        rfl

variable [DecidableEq κ] {m : Monitor κ} {as : List (Action κ)} {es : List Effect} {capacity : Nat}
  {rs rs' : List Report}

/-- Reports are steps like others: `recordAll` goes on with a run. -/
theorem Run.recordAll (h : Run capacity as m es) (rs : List Report) : ∃ es', Run capacity
    (as ++ rs.map fun r => .complete r.id r.op r.generation) (m.recordAll rs).1 es' := by
  induction rs generalizing as m es with
  | nil => exact ⟨es, by simpa [Monitor.recordAll] using h⟩
  | cons r rs ih =>
    obtain ⟨es', hrun⟩ := ih (h.step (a := .complete r.id r.op r.generation) rfl)
    refine ⟨es', ?_⟩
    rwa [List.append_assoc] at hrun

/-- What two orders of the same reports come to. -/
structure Commutes (m : Monitor κ) (rs rs' : List Report) : Prop where
  slots_eq : (m.recordAll rs).1.table.slots = (m.recordAll rs').1.table.slots
  inFlight_eq : (m.recordAll rs).1.table.inFlight = (m.recordAll rs').1.table.inFlight
  refused_eq : (m.recordAll rs).1.table.stale + (m.recordAll rs).1.table.duplicate =
    (m.recordAll rs').1.table.stale + (m.recordAll rs').1.table.duplicate
  /-- If the checkpoint stage is done with no occupant that is reported on. -/
  undone : (∀ r ∈ rs, ∀ s, m.table.slot? r.id = some s → s.checkpointDone = false) →
    (m.recordAll rs).1.table.stale = (m.recordAll rs').1.table.stale ∧
      (m.recordAll rs).1.table.duplicate = (m.recordAll rs').1.table.duplicate ∧
      (m.recordAll rs).2.Perm (m.recordAll rs').2

/-- Whatever calls have come to a table, reports leave it the same in every order (`Commutes`), but
for which of them are refused as `stale` and which as `duplicate`. -/
theorem Run.reports_commute (h : Run capacity as m es) (hperm : rs.Perm rs') :
    Commutes m rs rs' := by
  obtain ⟨htold, hslots, hstale, hduplicate⟩ := m.recordAll_eq rs
  obtain ⟨htold', hslots', hstale', hduplicate'⟩ := m.recordAll_eq rs'
  -- The slots are the same, so the count of those in use is, in whatever order they got there.
  have hsame : (m.recordAll rs).1.table.slots = (m.recordAll rs').1.table.slots := by
    rw [hslots, hslots', foldl_reportTo_perm hperm]
  constructor
  case slots_eq => exact hsame
  case inFlight_eq =>
    obtain ⟨_, hrun⟩ := h.recordAll rs
    obtain ⟨_, hrun'⟩ := h.recordAll rs'
    have hcounted := hrun.isCounted
    have hcounted' := hrun'.isCounted
    unfold IsCounted at hcounted hcounted'
    rw [hcounted, hcounted', hsame]
  case refused_eq =>
    have hrefused := countP_isRefused_perm hperm m.table.slots
    rw [← htold, ← htold', Outcome.countP_isRefused, Outcome.countP_isRefused] at hrefused
    omega
  case undone =>
    intro hundone
    have htold_perm := outcomesAt_perm hperm hundone
    rw [← htold, ← htold'] at htold_perm
    exact ⟨by rw [hstale, hstale', htold_perm.count_eq],
      by rw [hduplicate, hduplicate', htold_perm.count_eq], htold_perm⟩

/-- The first slot is marked and has one operation outstanding, so whichever of its operations comes
first releases it. The second slot is not marked, and the first report of its commit makes the join
hold, wherever it comes. -/
theorem reports_commute_of_release :
    ∃ (m : Monitor Nat) (es : List Effect) (rs rs' us us' : List Report),
      rs = [⟨0, .writeData, none⟩, ⟨0, .journalTxb, some 1⟩, ⟨1, .journalTxe, none⟩,
        ⟨0, .writeData, none⟩] ∧
      rs' = [⟨0, .journalTxb, some 1⟩, ⟨0, .writeData, none⟩, ⟨0, .writeData, none⟩,
        ⟨1, .journalTxe, none⟩] ∧
      us = [⟨1, .journalTxe, some 1⟩, ⟨1, .writeData, none⟩, ⟨1, .journalTxe, none⟩] ∧
      us' = [⟨1, .writeData, none⟩, ⟨1, .journalTxe, none⟩, ⟨1, .journalTxe, some 1⟩] ∧
      Run 2 [.enter 0 (.slot 0), .issue 0, .mark 0, .enter 0 (.slot 1), .issue 1] m es ∧
      rs.Perm rs' ∧ us.Perm us' ∧
      (m.recordAll rs).2 = [.pending, .stale, .joined .commit, .stale] ∧
      (m.recordAll rs').2 = [.pending, .stale, .stale, .joined .commit] ∧ Commutes m rs rs' ∧
      (∀ r ∈ us, ∀ s, m.table.slot? r.id = some s → s.checkpointDone = false) ∧
      (m.recordAll us).2 = [.joined .commit, .pending, .duplicate] ∧
      (m.recordAll us').2.Perm [.joined .commit, .pending, .duplicate] := by
  have htrace : (trace? 2 [.enter 0 (.slot 0), .issue 0, .mark 0, .enter 0 (.slot 1), .issue 1]).map
      (fun (p : Monitor Nat × List Effect) => (p.1.table.slots,
        (p.1.recordAll [⟨0, .writeData, none⟩, ⟨0, .journalTxb, some 1⟩, ⟨1, .journalTxe, none⟩,
          ⟨0, .writeData, none⟩]).2,
        (p.1.recordAll [⟨0, .journalTxb, some 1⟩, ⟨0, .writeData, none⟩, ⟨0, .writeData, none⟩,
          ⟨1, .journalTxe, none⟩]).2,
        (p.1.recordAll [⟨1, .journalTxe, some 1⟩, ⟨1, .writeData, none⟩,
          ⟨1, .journalTxe, none⟩]).2)) =
      some (#[⟨true, 1, .empty, 1, true⟩, ⟨true, 1, .empty, 1, false⟩],
        [.pending, .stale, .joined .commit, .stale], [.pending, .stale, .stale, .joined .commit],
        [.joined .commit, .pending, .duplicate]) := by decide +kernel
  obtain ⟨⟨m, es⟩, htrace, heq⟩ := Option.map_eq_some_iff.mp htrace
  obtain ⟨hslots, hrs, hrs', hus⟩ := by simpa only [Prod.mk.injEq] using heq
  have hrun := Run.of_trace? htrace
  have hundone : ∀ r ∈ ([⟨1, .journalTxe, some 1⟩, ⟨1, .writeData, none⟩,
      ⟨1, .journalTxe, none⟩] : List Report), ∀ s, m.table.slot? r.id = some s →
      s.checkpointDone = false := by
    have hids : ∀ r ∈ ([⟨1, .journalTxe, some 1⟩, ⟨1, .writeData, none⟩,
        ⟨1, .journalTxe, none⟩] : List Report), r.id = 1 := by decide
    intro r hmem s hs
    rw [slot?, hslots, hids r hmem] at hs
    obtain rfl := Option.some.inj hs
    rfl
  have hperm : ([⟨1, .journalTxe, some 1⟩, ⟨1, .writeData, none⟩,
      ⟨1, .journalTxe, none⟩] : List Report).Perm [⟨1, .writeData, none⟩, ⟨1, .journalTxe, none⟩,
        ⟨1, .journalTxe, some 1⟩] := by decide
  have hsame := (Run.reports_commute hrun hperm).undone hundone
  exact ⟨m, es, _, _, _, _, rfl, rfl, rfl, rfl, hrun, by decide, hperm, hrs, hrs',
    Run.reports_commute hrun (by decide), hundone, hus, hus ▸ hsame.2.2.symm⟩

end Monitor

end Table

end WriteAhead
