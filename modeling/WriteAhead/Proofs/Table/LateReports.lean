import WriteAhead.Proofs.Table.Generations
import WriteAhead.Proofs.Table.Neutral

/-!
# Late reports do not interfere

A report may come long after the occupant that it is for has left: its slot is free then, or others
have claimed it. `Call` tells such reports from the calls of a history of their own, and a
`Transcript` is what the calls were answered, one after the other. With the late reports or without
them all other calls are answered the same and leave the same slots; the table counts the late ones.

## Key results

- `step_addStale`: nothing that a step does depends on the count of stale reports
- `LateReports.undisturbed`: late reports change nothing but that count
-/

namespace WriteAhead.Table

/-! ## The count of stale reports -/

/-- A table whose count `stale` is `n` higher. -/
def addStale (t : Table) (n : Nat) : Table := { t with stale := t.stale + n }

section

variable (t : Table) (n : Nat) (id : WriteId)

/-- An `acquire` does not look at the count of stale reports. -/
theorem acquire_addStale : (t.addStale n).acquire id = (t.acquire id).map (·.addStale n) := by
  have hslot : (t.addStale n).slot? id = t.slot? id := rfl
  have hdown : (t.addStale n).isShutDown = t.isShutDown := rfl
  unfold acquire
  rw [hslot, hdown]
  cases t.slot? id with
  | none => rfl
  | some s =>
    simp only
    split
    · rfl
    · split <;> rfl

/-- A `tryRelease` does not look at the count of stale reports. -/
theorem tryRelease_addStale :
    (t.addStale n).tryRelease id = ((t.tryRelease id).1.addStale n, (t.tryRelease id).2) := by
  have hslot : (t.addStale n).slot? id = t.slot? id := rfl
  unfold tryRelease
  rw [hslot]
  cases t.slot? id with
  | none => rfl
  | some s =>
    simp only
    split <;> rfl

/-- A `recordIssue` does not look at the count of stale reports. -/
theorem recordIssue_addStale : (t.addStale n).recordIssue id =
    (t.recordIssue id).map fun (t', g) => (t'.addStale n, g) := by
  have hslot : (t.addStale n).slot? id = t.slot? id := rfl
  unfold recordIssue
  rw [hslot]
  cases t.slot? id with
  | none => rfl
  | some s =>
    simp only
    split
    · rfl
    · split <;> rfl

/-- A `recordCompletion` only adds to the count of stale reports, whatever it is. -/
theorem recordCompletion_addStale (op : Operation) (g : Option Generation) :
    (t.addStale n).recordCompletion id op g =
      ((t.recordCompletion id op g).1.addStale n, (t.recordCompletion id op g).2) := by
  have hslot : (t.addStale n).slot? id = t.slot? id := rfl
  -- A report that is refused adds one of its own, in either order.
  have hstale : (t.addStale n).stale + 1 = t.stale + 1 + n := Nat.add_right_comm ..
  have hmodify (f : Slot → Slot) : (t.addStale n).modify id f = (t.modify id f).addStale n := rfl
  unfold recordCompletion
  rw [hslot, hstale, hmodify]
  cases t.slot? id with
  | none => rfl
  | some s =>
    simp only [tryRelease_addStale]
    split
    · rfl
    · split <;> rfl

/-- A `markCheckpointDone` does not look at the count of stale reports. -/
theorem markCheckpointDone_addStale : (t.addStale n).markCheckpointDone id =
    (t.markCheckpointDone id).map fun (t', released) => (t'.addStale n, released) := by
  have hslot : (t.addStale n).slot? id = t.slot? id := rfl
  have hmodify (f : Slot → Slot) : (t.addStale n).modify id f = (t.modify id f).addStale n := rfl
  unfold markCheckpointDone
  rw [hslot, hmodify, tryRelease_addStale]
  cases t.slot? id <;> rfl

end

/-- To count more stale reports is `Neutral`: all operations but the mark commute with it. -/
theorem neutral_addStale (n : Nat) : Neutral (·.addStale n) where
  capacity_eq _ := rfl
  isShutDown_eq _ := rfl
  isDrained_eq _ := rfl
  completed_eq _ _ := rfl
  acquire_eq t id := acquire_addStale t n id
  recordIssue_eq t id := recordIssue_addStale t n id
  recordCompletion_eq t id op g := recordCompletion_addStale t n id op g
  shutDown_eq _ := rfl

namespace Monitor

variable {κ : Type}

/-- A table that refused `n` more reports as stale, with the same callers. -/
def addStale (m : Monitor κ) (n : Nat) : Monitor κ := { m with table := m.table.addStale n }

/-- A `markCheckpointDone` commutes with more stale reports on the monitor as it does on the table,
and wakes the same callers. -/
theorem markCheckpointDone_addStale (m : Monitor κ) (n : Nat) (id : WriteId) :
    (m.addStale n).markCheckpointDone id =
      (m.markCheckpointDone id).map fun (m', released) => (m'.addStale n, released) := by
  unfold markCheckpointDone
  have htable : (m.addStale n).table = m.table.addStale n := rfl
  rw [htable, Table.markCheckpointDone_addStale]
  cases m.table.markCheckpointDone id with
  | error f => rfl
  | ok p =>
    have hnotify := notifyRelease_change (neutral_addStale n) { m with table := p.1 } id p.2
    exact congrArg (fun m' => Except.ok (m', p.2)) hnotify

variable [DecidableEq κ]

/-- Nothing that a `step` does or yields depends on the count of stale reports. -/
theorem step_addStale (m : Monitor κ) (n : Nat) (a : Action κ) :
    (m.addStale n).step a = (m.step a).map fun (m', y) => (m'.addStale n, y) := by
  by_cases ha : ∃ id, a = .mark id
  · obtain ⟨id, rfl⟩ := ha
    simp only [step, markCheckpointDone_addStale]
    cases m.markCheckpointDone id <;> rfl
  · exact step_change (neutral_addStale n) m fun id h => ha ⟨id, h⟩

/-- A report that the slot does not accept is answered `stale`, with the current generation, and the
table counts it. -/
theorem step_late {m : Monitor κ} {id : WriteId} {g : Generation} {s : Slot} (op : Operation)
    (hs : m.table.slot? id = some s) (hlate : s.accepts (some g) = false) :
    m.step (.complete id op (some g)) =
      some (m.addStale 1, .verdict (.stale s.generation)) := by
  simp only [step, recordCompletion, Table.recordCompletion, hs, hlate]
  rfl

/-! ## Histories with late reports -/

/-- A call in a history of calls on a table, some of which were put in. -/
inductive Call (κ : Type) where
  /-- A call of the history itself. -/
  | own (a : Action κ)
  /-- A report that was put in. -/
  | late (id : WriteId) (op : Operation) (generation : Generation)
  deriving DecidableEq

namespace Call

/-- What is called. -/
def action : Call κ → Action κ
  | own a => a
  | late id op g => .complete id op (some g)

/-- Whether a call is of the history itself. -/
def isOwn : Call κ → Bool
  | own _ => true
  | late .. => false

end Call

/-- What calls on a table came to. -/
structure Transcript (κ : Type) where
  monitor : Monitor κ
  effects : List Effect := []
  /-- Every call with what it yielded. -/
  answers : List (Call κ × Yield) := []

variable {capacity : Nat} {cs : List (Call κ)} {c : Call κ} {r r' : Transcript κ}

/-- One more call: its `step`, the effect of it, and what it was answered; none if the step is not
possible. -/
def Transcript.call? (r : Transcript κ) (c : Call κ) : Option (Transcript κ) :=
  (r.monitor.step c.action).map fun (m, y) =>
    ⟨m, r.effects ++ (r.monitor.effect? c.action y).toList, r.answers ++ [(c, y)]⟩

/-- Makes the calls one after the other on a new table; none if one of them is not possible. -/
def transcript? (capacity : Nat) (cs : List (Call κ)) : Option (Transcript κ) :=
  cs.foldlM Transcript.call? { monitor := { table := .create capacity } }

/-- The calls of a history without those that were put in. -/
def ownCalls (cs : List (Call κ)) : List (Call κ) := cs.filter (·.isOwn)

/-- Every report that was put in carries the generation of an occupant that had left by then. -/
def LateReports (capacity : Nat) (cs : List (Call κ)) : Prop :=
  ∀ i id op g, cs[i]? = some (.late id op g) →
    ∀ r, transcript? capacity (ownCalls (cs.take i)) = some r → Departed id g r.effects

/-- `r'` is `r` with the reports in it that were put into the calls `cs`. -/
structure Undisturbed (cs : List (Call κ)) (r r' : Transcript κ) : Prop where
  /-- Slots, writes in flight and callers are the same. -/
  monitor_eq : r'.monitor = r.monitor.addStale (cs.countP (!·.isOwn))
  effects_eq : r'.effects = r.effects
  calls_eq : r'.answers.map Prod.fst = cs
  /-- All other calls are answered the same. -/
  answers_eq : r'.answers.filter (·.1.isOwn) = r.answers
  /-- The reports that were put in are refused. -/
  stale : ∀ x ∈ r'.answers, x.1.isOwn = false → ∃ current, x.2 = .verdict (.stale current)

omit [DecidableEq κ] in
/-- A call of the history itself stays in `ownCalls`. -/
theorem ownCalls_own (cs : List (Call κ)) (a : Action κ) :
    ownCalls (cs ++ [.own a]) = ownCalls cs ++ [.own a] := by
  rw [ownCalls, List.filter_append]
  rfl

omit [DecidableEq κ] in
/-- A report that was put in is left out of `ownCalls`. -/
theorem ownCalls_late (cs : List (Call κ)) (id : WriteId) (op : Operation) (g : Generation) :
    ownCalls (cs ++ [.late id op g]) = ownCalls cs := by
  rw [ownCalls, List.filter_append]
  exact List.append_nil _

/-- The last call comes after the `transcript?` of all others. -/
theorem transcript?_concat :
    transcript? capacity (cs ++ [c]) = (transcript? capacity cs).bind (·.call? c) := by
  rw [transcript?, List.foldlM_append]
  simp only [List.foldlM_cons, List.foldlM_nil, Option.bind_eq_bind, Option.pure_def,
    Option.bind_fun_some]
  rfl

/-- A call comes to what its `step` does and yields. -/
theorem Transcript.call?_eq {m : Monitor κ} {y : Yield}
    (h : r.monitor.step c.action = some (m, y)) : r.call? c = some
      ⟨m, r.effects ++ (r.monitor.effect? c.action y).toList, r.answers ++ [(c, y)]⟩ := by
  rw [call?, h]
  rfl

/-- A transcript is that of a `Run`, with the same effects. -/
theorem Transcript.run (h : transcript? capacity cs = some r) :
    Run capacity (cs.map Call.action) r.monitor r.effects := by
  induction cs using List.reverseRecOn generalizing r with
  | nil =>
    obtain rfl := Option.some.inj h
    exact .start
  | append_singleton cs c ih =>
    rw [transcript?_concat] at h
    obtain ⟨r₀, hbefore, hcall⟩ := Option.bind_eq_some_iff.mp h
    obtain ⟨⟨m, y⟩, hstep, rfl⟩ := Option.map_eq_some_iff.mp hcall
    rw [List.map_append]
    exact (ih hbefore).step hstep

/-- The reports put into the beginning of a history are late as well (`LateReports`). -/
theorem LateReports.init (h : LateReports capacity (cs ++ [c])) : LateReports capacity cs := by
  intro i id op g hi
  obtain ⟨hlt, -⟩ := List.getElem?_eq_some_iff.mp hi
  have hlate := h i id op g (by rw [List.getElem?_append_left hlt, hi])
  rwa [List.take_append_of_le_length (Nat.le_of_lt hlt)] at hlate

/-- A report put in at the end is for an occupant that has `Departed`. -/
theorem LateReports.last {id : WriteId} {op : Operation} {g : Generation}
    (h : LateReports capacity (cs ++ [.late id op g]))
    (hr : transcript? capacity (ownCalls cs) = some r) : Departed id g r.effects := by
  have hlate := h cs.length id op g (by simp)
  rw [List.take_left] at hlate
  exact hlate r hr

/-! ## One more call -/

omit [DecidableEq κ] in
/-- Before the first call nothing was put in, so both histories are `Undisturbed`. -/
theorem Undisturbed.nil (m : Monitor κ) : Undisturbed [] { monitor := m } { monitor := m } :=
  ⟨rfl, rfl, rfl, rfl, nofun⟩

/-- A call of the history itself does the same with the reports put in as without, by
`step_addStale`. -/
theorem Undisturbed.own {a : Action κ} {m : Monitor κ} {y : Yield}
    (h : Undisturbed cs r r') (hstep : r.monitor.step a = some (m, y)) :
    ∃ r'', r'.call? (.own a) = some r'' ∧ Undisturbed (cs ++ [.own a])
      ⟨m, r.effects ++ (r.monitor.effect? a y).toList, r.answers ++ [(.own a, y)]⟩ r'' := by
  obtain ⟨hmonitor, heffects, hcalls, hanswers, hstale⟩ := h
  -- The two monitors differ in the count of stale reports, which no step looks at.
  have hstep' : r'.monitor.step a = some (m.addStale (cs.countP (!·.isOwn)), y) := by
    rw [hmonitor, step_addStale, hstep]
    rfl
  have heffect : r'.monitor.effect? a y = r.monitor.effect? a y := by
    rw [hmonitor]
    rfl
  refine ⟨_, Transcript.call?_eq (c := .own a) hstep', ?_⟩
  constructor
  case monitor_eq =>
    rw [List.countP_append]
    rfl
  case effects_eq =>
    show r'.effects ++ (r'.monitor.effect? a y).toList = _
    rw [heffects, heffect]
  case calls_eq =>
    rw [List.map_append, hcalls]
    rfl
  case answers_eq =>
    rw [List.filter_append, hanswers]
    rfl
  case stale =>
    intro x hx hown
    rcases List.mem_append.mp hx with hx | hx
    · exact hstale x hx hown
    · rw [List.mem_singleton.mp hx] at hown
      exact nomatch hown

/-- A late report changes nothing but the count of stale reports, by `step_late`. -/
theorem Undisturbed.late {id : WriteId} {g : Generation} {s : Slot} (op : Operation)
    (h : Undisturbed cs r r') (hs : r.monitor.table.slot? id = some s)
    (hlate : s.accepts (some g) = false) :
    ∃ r'', r'.call? (.late id op g) = some r'' ∧ Undisturbed (cs ++ [.late id op g]) r r'' := by
  obtain ⟨hmonitor, heffects, hcalls, hanswers, hstale⟩ := h
  have hs' : r'.monitor.table.slot? id = some s := by
    rw [hmonitor]
    exact hs
  -- The slot is the same with the reports put in, so it refuses this one too.
  have hstep := step_late op hs' hlate
  refine ⟨_, Transcript.call?_eq (c := .late id op g) hstep, ?_⟩
  constructor
  case monitor_eq =>
    -- One more report is counted.
    rw [hmonitor, List.countP_append]
    rfl
  case effects_eq =>
    rw [heffects]
    exact List.append_nil _
  case calls_eq =>
    rw [List.map_append, hcalls]
    rfl
  case answers_eq =>
    rw [List.filter_append, hanswers]
    exact List.append_nil _
  case stale =>
    intro x hx hown
    rcases List.mem_append.mp hx with hx | hx
    · exact hstale x hx hown
    · rw [List.mem_singleton.mp hx]
      exact ⟨_, rfl⟩

/-! ## Whole histories -/

/-- Reports for occupants that have left, put anywhere into a history in which no slot is claimed
`2 ^ 64` times, are refused and counted, and change no slot, no caller and no other answer. -/
theorem LateReports.undisturbed (hlate : LateReports capacity cs)
    (hown : transcript? capacity (ownCalls cs) = some r)
    (hfew : ∀ id, claims id r.effects < UInt64.size) :
    ∃ r', transcript? capacity cs = some r' ∧ Undisturbed cs r r' := by
  -- From the end: the last call is of the history itself or was put in.
  induction cs using List.reverseRecOn generalizing r with
  | nil =>
    obtain rfl := Option.some.inj hown
    exact ⟨_, rfl, .nil _⟩
  | append_singleton cs c ih =>
    cases c with
    | own a =>
      rw [ownCalls_own, transcript?_concat] at hown
      obtain ⟨r₀, hown₀, hcall⟩ := Option.bind_eq_some_iff.mp hown
      obtain ⟨⟨m, y⟩, hstep, rfl⟩ := Option.map_eq_some_iff.mp hcall
      obtain ⟨r₀', htranscript, hundisturbed⟩ :=
        ih hlate.init hown₀ fun id => (claims_le id _ _).trans_lt (hfew id)
      obtain ⟨r', hcall', hr'⟩ := hundisturbed.own hstep
      exact ⟨r', by rw [transcript?_concat, htranscript]; exact hcall', hr'⟩
    | late id op g =>
      rw [ownCalls_late] at hown
      obtain ⟨r₀', htranscript, hundisturbed⟩ := ih hlate.init hown hfew
      -- Nobody mistakes the report for one of the present occupant.
      obtain ⟨s, hs, hrefused⟩ :=
        (Transcript.run hown).not_accepts (hlate.last hown) (hfew id)
      obtain ⟨r', hcall', hr'⟩ := hundisturbed.late op hs hrefused
      exact ⟨r', by rw [transcript?_concat, htranscript]; exact hcall', hr'⟩

/-- Three reports for the first occupant of a slot: one comes while the slot is free, the others
when the second occupant holds it. Each is `stale`. -/
theorem undisturbed_of_reuse :
    ∃ cs : List (Call Nat), cs = [.own (.enter 0 (.slot 0)), .own (.issue 0),
        .own (.complete 0 .writeData (some 1)), .own (.mark 0), .late 0 .journalTxe 1,
        .own (.enter 1 (.slot 0)), .late 0 .writeData 1, .own (.issue 0), .late 0 .journalTxe 1] ∧
      ∃ r r', transcript? 1 (ownCalls cs) = some r ∧ transcript? 1 cs = some r' ∧
        Undisturbed cs r r' ∧ r.monitor.table.stale = 0 ∧ r'.monitor.table.stale = 3 ∧
        r'.monitor.table.slots = #[⟨true, 2, .empty, 1, false⟩] := by
  refine ⟨_, rfl, ?_⟩
  generalize hcs : ([.own (.enter 0 (.slot 0)), .own (.issue 0),
    .own (.complete 0 .writeData (some 1)), .own (.mark 0), .late 0 .journalTxe 1,
    .own (.enter 1 (.slot 0)), .late 0 .writeData 1, .own (.issue 0),
    .late 0 .journalTxe 1] : List (Call Nat)) = cs
  have hend : (transcript? 1 (ownCalls cs)).map (fun r => (r.monitor.table, r.effects)) =
      some ({ slots := #[⟨true, 2, .empty, 1, false⟩], inFlight := 1 },
        [.claimed 0 1, .issued 0, .completed 0 .writeData 1 false, .marked 0 true, .claimed 0 2,
          .issued 0]) := by
    subst hcs
    decide +kernel
  -- By the time of each report the first occupant had left.
  have hleft : ∀ i ∈ [4, 6, 8], ∀ r ∈ transcript? 1 (ownCalls (cs.take i)),
      Departed 0 1 r.effects := by
    subst hcs
    decide +kernel
  have hlate : LateReports 1 cs := by
    intro i id op g hi r hr
    have hreport : i ∈ [4, 6, 8] ∧ id = 0 ∧ g = 1 := by
      subst hcs
      rcases i with _ | _ | _ | _ | _ | _ | _ | _ | _ | i <;> simp_all
    obtain ⟨hmem, rfl, rfl⟩ := hreport
    exact hleft i hmem r hr
  obtain ⟨r, hown, hr⟩ := Option.map_eq_some_iff.mp hend
  obtain ⟨htable, heffects⟩ := Prod.mk.inj hr
  have hfew : ∀ id, claims id r.effects < UInt64.size := by
    intro id
    rw [heffects]
    exact List.countP_le_length.trans_lt (by decide)
  obtain ⟨r', htranscript, hundisturbed⟩ := hlate.undisturbed hown hfew
  refine ⟨r, r', hown, htranscript, hundisturbed, by rw [htable], ?_, ?_⟩
  · rw [hundisturbed.monitor_eq, ← hcs]
    show r.monitor.table.stale + 3 = 3
    rw [htable]
  · rw [hundisturbed.monitor_eq]
    show r.monitor.table.slots = _
    rw [htable]

end Monitor

end WriteAhead.Table
