import WriteAhead.Proofs.Table.Reports

/-!
# Each join fires once

All stages note their operations in one set of the slot, in whatever order the reports come. An
occupancy of a slot is the time from a claim to the release; `Occupancy` has the calls of that time
with what each yielded. The slot knows of its occupant exactly what these calls reported, so the
join of a stage holds from the call with which the last operation of the stage is reported, and this
is the one call that is told so.

## Key results

- `Occupancy.knows`: a slot in use has noted what the calls since its claim reported
- `Occupancy.told`: what a report is told, from the calls before it alone
- `Occupancy.joins`: the join of a stage fires once, and holds from then on
-/

namespace WriteAhead.Table.Monitor

variable {κ : Type}

/-! ## What is reported for an occupant -/

/-- The operation that a call reports for the occupant of generation `g`: by this generation, or for
whoever occupies the slot. -/
def reportOf? (id : WriteId) (g : Generation) : Action κ → Option Operation
  | .complete i op generation => if i = id ∧ generation.all (· == g) then some op else none
  | .enter .. | .recheck _ | .stir _ | .issue _ | .mark _ | .shutDown => none

/-- The operations that calls reported for the occupant. -/
def reported (id : WriteId) (g : Generation) (calls : List (Action κ × Yield)) : List Operation :=
  calls.filterMap fun c => reportOf? id g c.1

/-- Whether calls reported every operation of a stage for the occupant. -/
def isFull (id : WriteId) (g : Generation) (stage : Stage) (calls : List (Action κ × Yield)) :
    Bool := stage.operations.all (reported id g calls).contains

/-- Whether a call is a report for the slot that is told that the join of the stage holds. -/
def tellsJoin (id : WriteId) (stage : Stage) : Action κ × Yield → Bool
  | (.complete i op _, .verdict v) => i == id && v.outcome op == .joined stage
  | _ => false

section

variable {id : WriteId} {g : Generation} {stage : Stage} {calls : List (Action κ × Yield)}
  {c : Action κ × Yield} {op : Operation}

/-- One more call adds to what is `reported` what it reports itself. -/
theorem mem_reported_concat : op ∈ reported id g (calls ++ [c]) ↔
    op ∈ reported id g calls ∨ reportOf? id g c.1 = some op := by
  simp [reported, List.filterMap_append, List.mem_filterMap]

theorem reportOf?_complete {op' : Operation} {generation : Option Generation} :
    reportOf? (κ := κ) id g (.complete id op generation) = some op' ↔
      generation.all (· == g) = true ∧ op = op' := by
  simp [reportOf?]

/-- A stage is full if all operations of the stage are `reported`. -/
theorem isFull_eq_true : isFull id g stage calls = true ↔
    ∀ op : Operation, op.stage = stage → op ∈ reported id g calls := by
  simp [isFull, Stage.mem_operations]

/-- By `isFull` a stage depends on the reports of its own operations only. -/
theorem isFull_congr {calls' : List (Action κ × Yield)}
    (h : ∀ op : Operation, op.stage = stage →
      (op ∈ reported id g calls ↔ op ∈ reported id g calls')) :
    isFull id g stage calls = isFull id g stage calls' := by
  rw [Bool.eq_iff_iff, isFull_eq_true, isFull_eq_true]
  exact forall₂_congr h

/-- What was reported stays reported, so a stage that `isFull` stays so. -/
theorem isFull_concat (h : isFull id g stage calls = true) :
    isFull id g stage (calls ++ [c]) = true := by
  rw [isFull_eq_true] at h ⊢
  exact fun op hstage => mem_reported_concat.mpr (.inl (h op hstage))

/-- A call that reports nothing new of the stage leaves it as full as it was (`isFull`). -/
theorem isFull_concat_of_old (h : ∀ op, reportOf? id g c.1 = some op → op.stage = stage →
    op ∈ reported id g calls) : isFull id g stage (calls ++ [c]) = isFull id g stage calls := by
  refine isFull_congr fun op hstage => ?_
  rw [mem_reported_concat]
  exact or_iff_left_of_imp fun hreport => h op hreport hstage

/-- The test of `record_completion` for the join, on a slot that has noted what was reported, is
whether the stage `isFull`. -/
theorem containsAll_join {completed : OpSet}
    (h : ∀ op, completed.contains op = true ↔ op ∈ reported id g calls) :
    completed.containsAll stage.join = isFull id g stage calls := by
  rw [Bool.eq_iff_iff, OpSet.containsAll_iff, isFull_eq_true]
  simp only [Stage.contains_join, decide_eq_true_eq, h]

end

/-! ## Steps that are no reports -/

variable [DecidableEq κ] {m m' : Monitor κ} {a : Action κ} {y : Yield} {id : WriteId}
  {g : Generation} {s s' : Slot}

/-- What a `Turn` that is no report leaves of a slot in use, if it is in use still: the occupant and
what has completed for it. -/
theorem Turn.keeps (h : m.Turn a y m') (ha : ∀ i op generation, a ≠ .complete i op generation)
    (hs : m.table.slot? id = some s) (huse : s.inUse = true) (hs' : m'.table.slot? id = some s')
    (huse' : s'.inUse = true) : s'.generation = s.generation ∧ s'.completed = s.completed := by
  have hsame (htable : m'.table.slot? id = m.table.slot? id) :
      s'.generation = s.generation ∧ s'.completed = s.completed := by
    rw [htable, hs, Option.some.injEq] at hs'
    subst hs'
    exact ⟨rfl, rfl⟩
  -- A step replaces at most one slot, so the others need no look.
  have hreplaced {i : WriteId} {u u' : Slot} (hrep : Replaces m.table m'.table i u u')
      (hself : u.inUse = true → u'.inUse = true →
        u'.generation = u.generation ∧ u'.completed = u.completed) :
      s'.generation = s.generation ∧ s'.completed = s.completed := by
    by_cases hid : id = i
    · subst hid
      obtain rfl : s = u := Option.some.inj (hs.symm.trans hrep.old)
      obtain rfl : s' = u' := Option.some.inj (hs'.symm.trans hrep.slot?_self)
      exact hself huse huse'
    · exact hsame (hrep.slot?_of_ne hid)
  cases h with
  | @visited a k want first r m' hwant hvisit =>
    cases want with
    | slot i =>
      rcases hvisit.slot_cases with ⟨g, -, hacquire⟩ | ⟨e, -, htable⟩ | ⟨-, htable⟩
      · -- The slot that is granted was free.
        obtain ⟨u, hfree, -, -, hrep⟩ := acquire_granted hacquire
        exact hreplaced hrep fun hu _ => absurd (hfree.symm.trans hu) nofun
      · exact hsame (by rw [htable])
      · exact hsame (by rw [htable])
    | join i stage => exact hsame (by rw [hvisit.join_cases.1])
    | drain => exact hsame (by rw [hvisit.drain_cases.1])
  | stirred | unissued | unmarked | shutDown => exact hsame rfl
  | issued hissue =>
    obtain ⟨u, -, -, hrep⟩ := recordIssue_ok (recordIssue_table hissue)
    exact hreplaced hrep fun _ _ => ⟨rfl, rfl⟩
  | reported => exact absurd rfl (ha _ _ _)
  | marked hmark =>
    obtain ⟨u, -, hrep⟩ := markCheckpointDone_ok (markCheckpointDone_table hmark)
    refine hreplaced hrep fun _ hu' => ?_
    rw [Slot.settle_of_inUse hu']
    exact ⟨rfl, rfl⟩

/-! ## Steps that are reports -/

/-- A report is a step that is told a verdict, as `Recorded` has it for the table. -/
theorem recorded_of_step {i : WriteId} {op : Operation} {generation : Option Generation}
    (h : m.step (.complete i op generation) = some (m', y)) :
    ∃ v, y = .verdict v ∧ Recorded m.table m'.table ⟨i, op, generation⟩ (v.outcome op) := by
  obtain ⟨rfl, rfl⟩ := Prod.mk.inj (Option.some.inj h)
  exact ⟨_, rfl, recordCompletion_recorded (r := ⟨i, op, generation⟩) (recordCompletion_table rfl)⟩

/-- A report is noted (`takes`) exactly if it is one for the occupant that nobody has made
before. -/
theorem takes_iff {op : Operation} {generation : Option Generation} {ops : List Operation}
    (huse : s.inUse = true) (hgen : s.generation = g)
    (hknows : ∀ op, s.completed.contains op = true ↔ op ∈ ops) :
    s.takes ⟨id, op, generation⟩ = true ↔ generation.all (· == g) = true ∧ op ∉ ops := by
  rw [Slot.takes, Slot.accepts, huse, hgen, Bool.true_and, Bool.and_eq_true, ← hknows]
  simp

/-- What a `report` leaves noted in the slot of the occupant, if it does not release it. -/
theorem contains_report {op : Operation} {generation : Option Generation} {ops : List Operation}
    (huse : s.inUse = true) (hgen : s.generation = g)
    (hknows : ∀ op, s.completed.contains op = true ↔ op ∈ ops)
    (hstays : (s.report ⟨id, op, generation⟩).inUse = true) (o : Operation) :
    (s.report ⟨id, op, generation⟩).completed.contains o = true ↔
      o ∈ ops ∨ (generation.all (· == g) = true ∧ o = op) := by
  have htakes : s.takes ⟨id, op, generation⟩ = true ↔
      generation.all (· == g) = true ∧ op ∉ ops := takes_iff huse hgen hknows
  rw [Slot.report_of_inUse hstays]
  split
  · rename_i hnoted
    rw [Slot.completed_complete, OpSet.contains_insert, Bool.or_eq_true, decide_eq_true_eq, hknows]
    simp [(htakes.mp hnoted).1]
  · rename_i hrefused
    rw [hknows]
    refine ⟨.inl, ?_⟩
    rintro (hmem | ⟨haccepts, rfl⟩)
    · exact hmem
    · -- It was refused, so it had been reported before.
      by_contra hnew
      exact hrefused (htakes.mpr ⟨haccepts, hnew⟩)

/-! ## Occupancies -/

/-- The calls since the claim of an occupant of generation `g`, each made while it held the slot of
the write, with what they yielded. Only the last one may have released the slot. -/
inductive Occupancy (capacity : Nat) (id : WriteId) (g : Generation) :
    List (Action κ × Yield) → Monitor κ → Prop where
  | claimed {as : List (Action κ)} {m m' : Monitor κ} {es : List Effect} {a : Action κ}
      (hrun : Run capacity as m es) (hwant : m.want? a = some (.slot id))
      (hstep : m.step a = some (m', .reply (.acquired g))) : Occupancy capacity id g [] m'
  | call {calls : List (Action κ × Yield)} {m m' : Monitor κ} {s : Slot} {a : Action κ} {y : Yield}
      (h : Occupancy capacity id g calls m) (hs : m.table.slot? id = some s)
      (huse : s.inUse = true) (hstep : m.step a = some (m', y)) :
      Occupancy capacity id g (calls ++ [(a, y)]) m'

namespace Occupancy

variable {capacity : Nat} {calls before after : List (Action κ × Yield)} {c : Action κ × Yield}

/-- Before each call of an `Occupancy` the slot was in use. -/
theorem of_concat (h : Occupancy capacity id g (calls ++ [c]) m') :
    ∃ m s, Occupancy capacity id g calls m ∧ m.table.slot? id = some s ∧ s.inUse = true ∧
      m.step c.1 = some (m', c.2) := by
  generalize heq : calls ++ [c] = l at h
  cases h with
  | claimed => simp at heq
  | @call calls' m m' s a y h hs huse hstep =>
    obtain ⟨rfl, hlast⟩ := List.append_inj' heq rfl
    obtain rfl := List.singleton_inj.mp hlast
    exact ⟨m, s, h, hs, huse, hstep⟩

/-- The calls up to one of them are an `Occupancy` as well. -/
theorem of_append (h : Occupancy capacity id g (before ++ c :: after) m) :
    ∃ m', Occupancy capacity id g (before ++ [c]) m' := by
  induction after using List.reverseRecOn generalizing m with
  | nil => exact ⟨m, h⟩
  | append_singleton after c' ih =>
    rw [← List.cons_append, ← List.append_assoc] at h
    obtain ⟨m', -, h, -⟩ := h.of_concat
    exact ih h

/-- A slot in use has noted what the calls since its claim reported: `completed` is the set of the
operations `reported`. -/
theorem knows (h : Occupancy capacity id g calls m) (hs : m.table.slot? id = some s)
    (huse : s.inUse = true) :
    s.generation = g ∧ ∀ op, s.completed.contains op = true ↔ op ∈ reported id g calls := by
  -- By induction on the calls; only a report to this slot changes what is noted in it.
  induction h generalizing s with
  | @claimed as m m' es a hrun hwant hstep =>
    have heffected := effected_of_step hstep
    have heffect : m.effect? a (.reply (.acquired g)) = some (.claimed id g) := by
      simp only [effect?, hwant]
    rw [heffect] at heffected
    cases heffected with
    | claimed hfree hrep =>
      rw [hrep.slot?_self, Option.some.injEq] at hs
      subst hs
      exact ⟨rfl, by simp [reported, Slot.occupy]⟩
  | @call calls m m' s₀ a y h hs₀ huse₀ hstep ih =>
    obtain ⟨hgen, hknows⟩ := ih hs₀ huse₀
    by_cases ha : ∃ i op generation, a = .complete i op generation
    · obtain ⟨i, op, generation, rfl⟩ := ha
      obtain ⟨v, rfl, hrecorded⟩ := recorded_of_step hstep
      rw [slot?, hrecorded.slots_eq, getElem?_reportTo] at hs
      by_cases hid : i = id
      · subst hid
        rw [if_pos rfl, ← slot?, hs₀, Option.map_some, Option.some.injEq] at hs
        subst hs
        refine ⟨?_, fun o => ?_⟩
        · rw [Slot.report_of_inUse huse]
          split <;> exact hgen
        · rw [contains_report huse₀ hgen hknows huse, mem_reported_concat, reportOf?_complete,
            eq_comm (a := o)]
      · rw [if_neg hid, ← slot?, hs₀, Option.some.injEq] at hs
        subst hs
        refine ⟨hgen, fun o => ?_⟩
        rw [hknows, mem_reported_concat]
        exact (or_iff_left (by simp [reportOf?, hid])).symm
    · -- Nothing else notes an operation.
      have hnone : reportOf? id g a = none := by
        cases a with
        | complete i op generation => exact absurd ⟨i, op, generation, rfl⟩ ha
        | enter | recheck | stir | issue | mark | shutDown => rfl
      have hkeeps := (turn_of_step hstep).keeps (fun i op generation heq =>
        ha ⟨i, op, generation, heq⟩) hs₀ huse₀ hs huse
      refine ⟨hkeeps.1.trans hgen, fun o => ?_⟩
      rw [hkeeps.2, hknows, mem_reported_concat]
      exact (or_iff_left (by simp [hnone])).symm

/-- What a report is told (`outcome`) depends on the calls before it alone: stale, duplicate, joined
or pending, in this order of the tests. -/
theorem told {op : Operation} {generation : Option Generation}
    (h : Occupancy capacity id g (calls ++ [(.complete id op generation, y)]) m) :
    ∃ v, y = .verdict v ∧ v.outcome op =
      if generation.all (· == g) then
        if op ∈ reported id g calls then .duplicate
        else if isFull id g op.stage (calls ++ [(.complete id op generation, y)]) then
          .joined op.stage
        else .pending
      else .stale := by
  obtain ⟨m₀, s, h, hs, huse, hstep⟩ := h.of_concat
  obtain ⟨hgen, hknows⟩ := h.knows hs huse
  obtain ⟨v, rfl, hrecorded⟩ := recorded_of_step hstep
  refine ⟨v, rfl, ?_⟩
  rw [slot?] at hs
  have haccepts : s.accepts generation = generation.all (· == g) := by
    rw [Slot.accepts, huse, hgen, Bool.true_and]
  rw [hrecorded.told_eq, outcomeAt, hs, Option.elim_some, Slot.outcome, haccepts]
  -- The generation is looked at first, as in `record_completion`.
  cases hall : generation.all (· == g) with
  | false => rfl
  | true =>
    have hnoted (o : Operation) : (s.completed.insert op).contains o = true ↔
        o ∈ reported id g (calls ++ [(.complete id op generation, .verdict v)]) := by
      rw [OpSet.contains_insert, Bool.or_eq_true, decide_eq_true_eq, hknows, mem_reported_concat,
        reportOf?_complete, hall, eq_comm (a := op)]
      simp
    simp only [containsAll_join hnoted, hknows, Bool.not_true, Bool.false_eq_true, if_false,
      if_true]

/-- The call that `tellsJoin` is the one that completes the reports of its stage. All others leave
the stage as full as it was. -/
theorem tellsJoin_iff (h : Occupancy capacity id g (calls ++ [c]) m) (stage : Stage) :
    tellsJoin id stage c = true ↔
      isFull id g stage calls = false ∧ isFull id g stage (calls ++ [c]) = true := by
  -- A call that reports nothing new of the stage is not told, so it must leave the stage as it was.
  have hold (hreport : ∀ op, reportOf? id g c.1 = some op → op.stage = stage →
      op ∈ reported id g calls) :
      ¬ (isFull id g stage calls = false ∧ isFull id g stage (calls ++ [c]) = true) := by
    rintro ⟨hbefore, hafter⟩
    rw [isFull_concat_of_old hreport, hbefore] at hafter
    exact nomatch hafter
  obtain ⟨a, y⟩ := c
  cases a with
  | enter | recheck | stir | issue | mark | shutDown =>
    exact iff_of_false (by simp [tellsJoin]) (hold (by simp [reportOf?]))
  | complete i op generation =>
    by_cases hid : i = id
    · subst hid
      obtain ⟨v, rfl, htold⟩ := h.told
      have htells : tellsJoin i stage (.complete (κ := κ) i op generation, .verdict v) = true ↔
          v.outcome op = .joined stage := by simp [tellsJoin]
      rw [htells, htold]
      by_cases hall : generation.all (· == g) = true
      · by_cases hmem : op ∈ reported i g calls
        · -- Reported before.
          refine iff_of_false (by simp [hall, hmem]) (hold fun o ho _ => ?_)
          rwa [← (reportOf?_complete.mp ho).2]
        · by_cases hstage : op.stage = stage
          · subst hstage
            have hlacks : isFull i g op.stage calls = false := by
              rw [← Bool.not_eq_true, isFull_eq_true]
              exact fun hfull => hmem (hfull op rfl)
            simp [hall, hmem, hlacks]
          · -- Of another stage.
            refine iff_of_false ?_ (hold fun o ho ho' => ?_)
            · rw [if_pos hall, if_neg hmem]
              split <;> simp [hstage]
            · exact absurd ((reportOf?_complete.mp ho).2 ▸ ho') hstage
      · refine iff_of_false (by simp [hall]) (hold fun o ho _ => ?_)
        exact absurd (reportOf?_complete.mp ho).1 hall
    · refine iff_of_false ?_ (hold (by simp [reportOf?, hid]))
      cases y <;> simp [tellsJoin, hid]

/-- As many calls are told of a join (`tellsJoin`) as there are stages full of reports: one or none,
since a full stage stays full. -/
theorem countP_tellsJoin (h : Occupancy capacity id g calls m) (stage : Stage) :
    calls.countP (tellsJoin id stage) = (isFull id g stage calls).toNat := by
  induction calls using List.reverseRecOn generalizing m with
  | nil => cases stage <;> rfl
  | append_singleton calls c ih =>
    have htells := h.tellsJoin_iff stage
    obtain ⟨m₀, s, h, -⟩ := h.of_concat
    rw [List.countP_append, List.countP_singleton, ih h]
    -- A call is told only between a stage that is not full and one that is.
    cases hbefore : isFull id g stage calls with
    | true =>
      rw [isFull_concat hbefore, if_neg]
      · rfl
      · simp [htells, hbefore]
    | false =>
      rw [hbefore] at htells
      cases hafter : isFull id g stage (calls ++ [c]) with
      | true => rw [if_pos (htells.mpr ⟨rfl, hafter⟩)]; rfl
      | false =>
        rw [if_neg]
        · rfl
        · simp [htells, hafter]

/-- A caller that waits for the join of a full stage goes on at once: `attempt` answers it. -/
theorem attempt_of_isFull {k : κ} {w : Waiters κ Want} {stage : Stage}
    (h : Occupancy capacity id g calls m) (hfull : isFull id g stage calls = true)
    (hs : m.table.slot? id = some s) (huse : s.inUse = true) :
    attempt { m with waiters := w } k (.join id stage) =
      ({ m with waiters := w }, some .joined) := by
  have hjoin : s.completed.containsAll stage.join = true := by
    rw [containsAll_join (h.knows hs huse).2, hfull]
  simp [attempt, hs, hjoin]

end Occupancy

/-- The joins of an occupancy fire once each and hold from then on. -/
structure Joins (id : WriteId) (g : Generation) (calls : List (Action κ × Yield)) (m : Monitor κ) :
    Prop where
  /-- The call that is told of a join is the first one after which all operations of the stage have
  been reported. -/
  fired : ∀ before c after stage, calls = before ++ c :: after → (tellsJoin id stage c = true ↔
    isFull id g stage before = false ∧ isFull id g stage (before ++ [c]) = true)
  /-- As soon as all of them have been reported one call was told, and before that none. -/
  once : ∀ stage, calls.countP (tellsJoin id stage) = (isFull id g stage calls).toNat
  /-- It is told so by a report of one of them. -/
  own : ∀ before op generation v after stage,
    calls = before ++ (.complete id op generation, .verdict v) :: after →
    v.outcome op = .joined stage → op.stage = stage
  /-- Reports of other stages do not count for the join. -/
  others : ∀ before op generation y after stage,
    calls = before ++ (.complete id op generation, y) :: after → op.stage ≠ stage →
    isFull id g stage (before ++ [(.complete id op generation, y)]) = isFull id g stage before
  /-- The first report of an operation is noted. -/
  pending : ∀ before op generation v after,
    calls = before ++ (.complete id op generation, .verdict v) :: after →
    generation.all (· == g) = true → op ∉ reported id g before →
    isFull id g op.stage (before ++ [(.complete id op generation, .verdict v)]) = false →
    v.outcome op = .pending
  duplicate : ∀ before op generation v after,
    calls = before ++ (.complete id op generation, .verdict v) :: after →
    generation.all (· == g) = true → op ∈ reported id g before → v.outcome op = .duplicate
  /-- A report for another occupant is refused. -/
  stale : ∀ before op generation v after,
    calls = before ++ (.complete id op generation, .verdict v) :: after →
    generation.all (· == g) = false → v.outcome op = .stale
  /-- While the slot is held, whoever waits for a join that fired is answered at once. -/
  waits : ∀ stage s, (∃ c ∈ calls, tellsJoin id stage c = true) → m.table.slot? id = some s →
    s.inUse = true →
    (∀ k, m.isFree k = true → m.step (.enter k (.join id stage)) = some (m, .reply .joined)) ∧
    ∀ k, m.waiters.wokenWant? k = some (.join id stage) →
      ∃ m', m.step (.recheck k) = some (m', .reply .joined)

/-- In every occupancy of a slot, whatever calls come to the table in that time, the join of each
stage fires once, by the call that reports the last operation of the stage (`Joins`). -/
theorem Occupancy.joins {capacity : Nat} {calls : List (Action κ × Yield)}
    (h : Occupancy capacity id g calls m) : Joins id g calls m := by
  -- Every report of the occupancy is told by what was reported before it.
  have htold {before after : List (Action κ × Yield)} {op : Operation}
      {generation : Option Generation} {v : Verdict}
      (hcalls : calls = before ++ (.complete id op generation, .verdict v) :: after) :
      v.outcome op = if generation.all (· == g) then
          if op ∈ reported id g before then .duplicate
          else if isFull id g op.stage (before ++ [(.complete id op generation, .verdict v)]) then
            .joined op.stage
          else .pending
        else .stale := by
    subst hcalls
    obtain ⟨m', h⟩ := h.of_append
    obtain ⟨v', heq, hv⟩ := h.told
    obtain rfl := Yield.verdict.inj heq
    exact hv
  constructor
  case fired =>
    rintro before c after stage rfl
    obtain ⟨m', h⟩ := h.of_append
    exact h.tellsJoin_iff stage
  case once => exact h.countP_tellsJoin
  case own =>
    intro before op generation v after stage hcalls hjoined
    rw [htold hcalls] at hjoined
    split at hjoined
    · split at hjoined
      · exact nomatch hjoined
      · split at hjoined
        · exact Outcome.joined.inj hjoined
        · exact nomatch hjoined
    · exact nomatch hjoined
  case others =>
    intro before op generation y after stage hcalls hstage
    refine isFull_concat_of_old fun o ho ho' => ?_
    exact absurd ((reportOf?_complete.mp ho).2 ▸ ho') hstage
  case pending =>
    intro before op generation v after hcalls hall hnew hlacks
    rw [htold hcalls, if_pos hall, if_neg hnew, hlacks]
    rfl
  case duplicate =>
    intro before op generation v after hcalls hall hmem
    rw [htold hcalls, if_pos hall, if_pos hmem]
  case stale =>
    intro before op generation v after hcalls hall
    rw [htold hcalls, hall]
    rfl
  case waits =>
    rintro stage s ⟨c, hmem, htells⟩ hs huse
    have hfull : isFull id g stage calls = true := by
      have hcount : 0 < calls.countP (tellsJoin id stage) :=
        List.countP_pos_iff.mpr ⟨c, hmem, htells⟩
      rw [h.countP_tellsJoin] at hcount
      cases hf : isFull id g stage calls with
      | true => rfl
      | false => rw [hf] at hcount; exact nomatch hcount
    refine ⟨fun k hfree => ?_, fun k hwant => ?_⟩
    · have hattempt := h.attempt_of_isFull (k := k) (w := m.waiters) hfull hs huse
      simp only [step, hfree, if_true, enter, hattempt, Yield.ofReply?]
    · have hattempt := h.attempt_of_isFull (k := k) (w := m.waiters.resume k) hfull hs huse
      simp only [step, recheck, hwant, Option.map_some, hattempt, Yield.ofReply?]
      exact ⟨_, rfl⟩

/-- Makes calls one after the other while the slot is in use, and adds them to those before; none if
one of them is not possible or comes too late. -/
def hold? (id : WriteId) (calls : List (Action κ × Yield)) (m : Monitor κ) (as : List (Action κ)) :
    Option (List (Action κ × Yield) × Monitor κ) :=
  as.foldlM (fun p a =>
    if (p.2.table.slot? id).any (·.inUse) then
      (p.2.step a).map fun q => (p.1 ++ [(a, q.2)], q.1)
    else none) (calls, m)

/-- The calls that `hold?` makes are made in an `Occupancy`. -/
theorem Occupancy.of_hold? {capacity : Nat} {calls calls' : List (Action κ × Yield)}
    {as : List (Action κ)} (h : Occupancy capacity id g calls m)
    (hhold : hold? id calls m as = some (calls', m')) : Occupancy capacity id g calls' m' := by
  induction as generalizing calls m with
  | nil =>
    obtain ⟨rfl, rfl⟩ := Prod.mk.inj (Option.some.inj hhold)
    exact h
  | cons a as ih =>
    rw [hold?, List.foldlM_cons] at hhold
    obtain ⟨p, hfirst, hrest⟩ := Option.bind_eq_some_iff.mp hhold
    split at hfirst
    · rename_i huse
      obtain ⟨s, hs, huse⟩ := (Option.any_eq_true _ _).mp huse
      obtain ⟨⟨m₁, y⟩, hstep, rfl⟩ := Option.map_eq_some_iff.mp hfirst
      exact ih (h.call hs huse hstep) hrest
    · exact nomatch hfirst

/-- One occupant of a slot, from its claim to the report that releases it. The commit is reported
first, one report comes twice and one is for another occupant. -/
theorem joins_of_reordering :
    ∃ (as : List (Action Nat)) (calls : List (Action Nat × Yield)) (m : Monitor Nat),
      as = [.issue 0, .issue 0, .issue 0, .issue 0, .issue 0, .complete 0 .journalTxe none,
        .complete 0 .writeData (some 1), .complete 0 .writeData none, .enter 1 (.join 0 .commit),
        .complete 0 .writeBitmap (some 2), .complete 0 .journalTxb (some 1), .mark 0,
        .complete 0 .journalBitmap none, .complete 0 .journalInode (some 1)] ∧
      calls.map Prod.fst = as ∧ Occupancy 1 0 1 calls m ∧ Joins 0 1 calls m ∧
      calls.findIdx? (tellsJoin 0 .commit) = some 5 ∧
      calls.countP (tellsJoin 0 .commit) = 1 ∧
      calls.findIdx? (tellsJoin 0 .metadata) = some 13 ∧
      calls.countP (tellsJoin 0 .checkpoint) = 0 ∧
      calls[8]? = some (.enter 1 (.join 0 .commit), .reply .joined) ∧
      m.table.slot? 0 = some { generation := 1 } := by
  generalize has : ([.issue 0, .issue 0, .issue 0, .issue 0, .issue 0,
    .complete 0 .journalTxe none, .complete 0 .writeData (some 1), .complete 0 .writeData none,
    .enter 1 (.join 0 .commit), .complete 0 .writeBitmap (some 2),
    .complete 0 .journalTxb (some 1), .mark 0, .complete 0 .journalBitmap none,
    .complete 0 .journalInode (some 1)] : List (Action Nat)) = as
  have hcalls : (({ table := .create 1 } : Monitor Nat).step (.enter 0 (.slot 0))).any (fun p =>
      p.2 = .reply (.acquired 1) && (hold? 0 [] p.1 as).any fun r => r.1.map Prod.fst = as &&
        r.1.findIdx? (tellsJoin 0 .commit) = some 5 && isFull 0 1 .commit r.1 &&
        r.1.findIdx? (tellsJoin 0 .metadata) = some 13 && !isFull 0 1 .checkpoint r.1 &&
        r.1[8]? = some (.enter 1 (.join 0 .commit), .reply .joined) &&
        r.2.table.slot? 0 = some { generation := 1 }) = true := by
    subst has
    decide +kernel
  obtain ⟨⟨m₀, y⟩, hstep, hrest⟩ := (Option.any_eq_true _ _).mp hcalls
  obtain ⟨hy, hrest⟩ := Bool.and_eq_true_iff.mp hrest
  obtain rfl := of_decide_eq_true hy
  obtain ⟨⟨calls, m⟩, hhold, hend⟩ := (Option.any_eq_true _ _).mp hrest
  simp only [Bool.and_eq_true, decide_eq_true_eq, Bool.not_eq_true'] at hend
  obtain ⟨⟨⟨⟨⟨⟨hcalls, hfired⟩, hcommit⟩, hfired'⟩, hcheckpoint⟩, hwait⟩, hslot⟩ := hend
  have hoccupancy : Occupancy 1 0 1 calls m := .of_hold? (.claimed .start rfl hstep) hhold
  have hjoins := Occupancy.joins hoccupancy
  refine ⟨as, calls, m, rfl, hcalls, hoccupancy, hjoins, hfired, ?_, hfired', ?_, hwait, hslot⟩
  · rw [hjoins.once, hcommit]
    rfl
  · rw [hjoins.once, hcheckpoint]
    rfl

end WriteAhead.Table.Monitor
