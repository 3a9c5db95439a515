import WriteAhead.Journal.Step
import WriteAhead.Proofs.Table.Slots

/-!
# A journal without its waiting

Waiting decides when a step can be taken and not what it does. `Pipeline` is what is left of a
journal when the waiters, the notifications and the counters are taken out of it: a worker that
waits counts as one that is about to look. `Move` lists what a step can do to it.

## Key results

- `Run.suited`: every worker is in a phase that its stage has
- `Run.isCounted`: the table counts its slots in use
-/

namespace WriteAhead

theorem Stage.eq_checkpoint_of_last {s : Stage} (h : s.next = none) : s = .checkpoint := by
  cases s <;> simp_all [Stage.next]

/-- Whether an event only reports on the journal itself and says nothing of its writes. -/
def Event.isNote : Event → Bool
  | .acquired .. | .accepted _ | .issued .. | .handed .. | .reported .. | .notified _
  | .checkpointed .. => false
  | _ => true

/-- A journal without its waiting. -/
structure Pipeline where
  table : Table
  /-- The writes that have their slot and are in no queue yet. -/
  admitted : List WriteId
  /-- The queued writes of each stage, the oldest first. -/
  lines : PerStage (List WriteId)
  closed : PerStage Bool
  workers : PerStage Phase
  outstanding : List Token
  closing : Closing

namespace Pipeline

/-- A pipeline at its start. -/
def create (c : Config) : Pipeline where
  table := Table.create c.maxRequests
  admitted := []
  lines := ⟨[], [], []⟩
  closed := ⟨false, false, false⟩
  workers := ⟨.popping, .popping, .popping⟩
  outstanding := []
  closing := .open

/-- Puts the worker of a stage into a phase. -/
def setPhase (p : Pipeline) (s : Stage) (phase : Phase) : Pipeline :=
  { p with workers := p.workers.set s phase }

open Journal (Action)

/-- What a step does to the pipeline. -/
inductive Move (p : Pipeline) : Action → List Event → Pipeline → Prop where
  /-- Nothing. -/
  | note {action : Action} {es : List Event} (hes : ∀ e ∈ es, e.isNote = true) : Move p action es p
  /-- A submitter claims a slot. -/
  | acquire {k : Nat} {id : WriteId} {t : Table} {g : Generation} {admitted : List WriteId}
      (hacquire : p.table.acquire id = .granted t g)
      (hadmitted : admitted.Perm (id :: p.admitted)) :
      Move p (.act (.caller k)) [.acquired id g] { p with table := t, admitted }
  /-- A submitter brings a write to the first queue. -/
  | accept {k : Nat} {id : WriteId} {admitted : List WriteId}
      (hopen : p.closed.get .metadata = false) (hadmitted : p.admitted.Perm (id :: admitted)) :
      Move p (.act (.caller k)) [.accepted id]
        { p with admitted, lines := p.lines.set .metadata (p.lines.get .metadata ++ [id]) }
  /-- A submitter finds the first queue closed; its write keeps the slot. -/
  | turnAway {k : Nat} {id : WriteId} {admitted : List WriteId} {es : List Event}
      (hes : ∀ e ∈ es, e.isNote = true) (hclosed : p.closed.get .metadata = true)
      (hadmitted : p.admitted.Perm (id :: admitted)) :
      Move p (.act (.caller k)) es { p with admitted }
  /-- A worker takes the oldest write of its queue. -/
  | take {s : Stage} {id : WriteId} {rest : List WriteId} (hphase : p.workers.get s = .popping)
      (hline : p.lines.get s = id :: rest) :
      Move p (.act (.worker s)) []
        ({ p with lines := p.lines.set s rest }.setPhase s (.issuing id s.operations))
  /-- A worker comes to its end since a queue is closed or the table is shut down. -/
  | stop {s : Stage} {es : List Event} (hes : ∀ e ∈ es, e.isNote = true)
      (hcause : (∃ t, p.closed.get t = true) ∨ p.table.isShutDown = true) :
      Move p (.act (.worker s)) es (p.setPhase s .stopped)
  /-- A worker puts an operation on record. -/
  | record {s : Stage} {id : WriteId} {op : Operation} {left : List Operation} {t : Table}
      {g : Generation} (hphase : p.workers.get s = .issuing id (op :: left))
      (hissue : p.table.recordIssue id = .ok (t, g)) :
      Move p (.act (.worker s)) [.issued s ⟨id, op, g⟩]
        ({ p with table := t }.setPhase s (.handing ⟨id, op, g⟩ left))
  /-- A worker hands a token to the device. -/
  | hand {s : Stage} {t : Token} {left : List Operation}
      (hphase : p.workers.get s = .handing t left) :
      Move p (.act (.worker s)) [.handed s t]
        ({ p with outstanding := p.outstanding ++ [t] }.setPhase s (.issuing t.writeId left))
  /-- A worker finds that the join of its stage holds. -/
  | advance {s : Stage} {id : WriteId} {slot : Slot} {es : List Event}
      (hes : ∀ e ∈ es, e.isNote = true) (hphase : p.workers.get s = .issuing id [])
      (hslot : p.table.slot? id = some slot) (hjoin : slot.completed.containsAll s.join = true) :
      Move p (.act (.worker s)) es
        (p.setPhase s (if s.next = none then .notifying id else .pushing id))
  /-- A worker puts a write into the queue of the next stage. -/
  | pass {s t : Stage} {id : WriteId} (hnext : s.next = some t)
      (hphase : p.workers.get s = .pushing id) :
      Move p (.act (.worker s)) []
        ({ p with lines := p.lines.set t (p.lines.get t ++ [id]) }.setPhase s .popping)
  /-- A worker tells the client of a write. -/
  | notify {s : Stage} {id : WriteId} (hphase : p.workers.get s = .notifying id) :
      Move p (.act (.worker s)) [.notified id] (p.setPhase s (.marking id))
  /-- A worker marks the checkpoint of a write as done. -/
  | mark {s : Stage} {id : WriteId} {t : Table} {released : Bool}
      (hphase : p.workers.get s = .marking id)
      (hmark : p.table.markCheckpointDone id = .ok (t, released)) :
      Move p (.act (.worker s)) [.checkpointed id released]
        ({ p with table := t }.setPhase s .popping)
  /-- A worker makes a call that the table does not allow. -/
  | fault {s : Stage} {f : Table.Fault} {id : WriteId}
      (hphase : (p.workers.get s).held? = some id)
      (hcause : p.table.recordIssue id = .error f ∨ p.table.slot? id = none) :
      Move p (.act (.worker s)) [] (p.setPhase s (.crashed (.fault f)))
  /-- The client panics. -/
  | clientPanic {id : WriteId} (hphase : p.workers.get .checkpoint = .notifying id) :
      Move p .clientPanic [.notified id] (p.setPhase .checkpoint (.crashed .client))
  /-- The device panics. -/
  | devicePanic {s : Stage} {t : Token} {left : List Operation}
      (hphase : p.workers.get s = .handing t left) :
      Move p (.devicePanic s) [.handed s t]
        ({ p with outstanding := p.outstanding ++ [t] }.setPhase s (.crashed .device))
  /-- The device completes a token. -/
  | complete {t : Token} {table : Table} {v : Table.Verdict} (hmem : t ∈ p.outstanding)
      (hreport : p.table.recordCompletion t.writeId t.operation (some t.generation) = (table, v)) :
      Move p (.complete t) [.reported t.writeId t.operation (some t.generation) v]
        { p with table, outstanding := p.outstanding.erase t }
  /-- The device drops a token. -/
  | drop {t : Token} (hmem : t ∈ p.outstanding) :
      Move p (.drop t) [.dropped t] { p with outstanding := p.outstanding.erase t }
  /-- An operation is reported by write id. -/
  | report {id : WriteId} {op : Operation} {table : Table} {v : Table.Verdict}
      (hreport : p.table.recordCompletion id op none = (table, v)) :
      Move p (.report id op) [.reported id op none v] { p with table }
  /-- A shutdown closes a queue. -/
  | close {s : Stage} {closing : Closing} (hclosing : p.closing = .closing s)
      (hnot : closing ≠ .open) :
      Move p (.act .closer) [] { p with closed := p.closed.set s true, closing }
  /-- A shutdown shuts the table down. -/
  | abort (hclosing : p.closing = .aborting) :
      Move p (.act .closer) []
        { p with table := p.table.shutDown, closing := .joining .metadata }
  /-- A shutdown begins or finds a worker gone. -/
  | turn {action : Action} {closing : Closing} {es : List Event}
      (hes : ∀ e ∈ es, e.isNote = true) (hnot : closing ≠ .open) :
      Move p action es { p with closing }

/-- The actions `as` lead from the start of a pipeline to `p`, with the events `es`. -/
inductive Run (c : Config) : List Action → Pipeline → List Event → Prop where
  | start {es : List Event} (hes : ∀ e ∈ es, e.isNote = true) : Run c [] (create c) es
  | move {as : List Action} {p p' : Pipeline} {es es' : List Event} {a : Action}
      (hrun : Run c as p es) (hmove : p.Move a es' p') : Run c (as ++ [a]) p' (es ++ es')

/-! ## Phases of a stage -/

/-- Whether the worker of a stage can be in a phase: it issues only operations of its stage, the
last one tells the client, and the others pass their writes on. -/
def Suits (s : Stage) : Phase → Prop
  | .issuing _ left => ∀ op ∈ left, op.stage = s
  | .handing t left => t.operation.stage = s ∧ ∀ op ∈ left, op.stage = s
  | .pushing _ => s.next ≠ none
  | .notifying _ | .marking _ => s.next = none
  | _ => True

variable {p p' : Pipeline}

/-- Workers in other phases do not mind that one worker changes its own phase (`setPhase`). -/
theorem suits_set {s : Stage} {phase : Phase} (h : ∀ t, Suits t (p.workers.get t))
    (hphase : Suits s phase) (t : Stage) : Suits t ((p.workers.set s phase).get t) := by
  rw [PerStage.get_set]
  split
  · rename_i ht
    rw [ht]
    exact hphase
  · exact h t

/-- A `Move` keeps the workers in phases of their stages: only the last one tells the client and
marks, and only the others push. -/
theorem Move.suited {a : Action} {es : List Event} (hmove : p.Move a es p')
    (h : ∀ s, Suits s (p.workers.get s)) : ∀ s, Suits s (p'.workers.get s) := by
  cases hmove with
  | note | acquire | accept | turnAway | complete | drop | report | close | abort | turn => exact h
  | take => exact suits_set h fun op hop => Stage.mem_operations.mp hop
  | stop | fault | clientPanic | devicePanic => exact suits_set h trivial
  -- What is left to issue after `op` is still of the stage, and so is the token of `op`.
  | @record s id op left t g hphase hissue =>
    have hs := h s
    rw [hphase] at hs
    exact suits_set h ⟨hs op List.mem_cons_self, fun o ho => hs o (List.mem_cons_of_mem _ ho)⟩
  | @hand s t left hphase =>
    have hs := h s
    rw [hphase] at hs
    exact suits_set h hs.2
  | @advance s id slot es hes hphase hslot hjoin =>
    refine suits_set h ?_
    split <;> assumption
  | pass => exact suits_set h trivial
  | @notify s id hphase =>
    have hs := h s
    rw [hphase] at hs
    exact suits_set h hs
  | mark => exact suits_set h trivial

/-- Every worker is in a phase that its stage has, along every `Run`. -/
theorem Run.suited {c : Config} {as : List Action} {es : List Event} (h : Run c as p es) :
    ∀ s, Suits s (p.workers.get s) := by
  induction h with
  | start => intro s; cases s <;> trivial
  | move hrun hmove ih => exact hmove.suited ih

/-! ## Slots in use -/

/-- A `Move` keeps `inFlight` the count of slots in use. -/
theorem Move.isCounted {a : Action} {es : List Event} (hmove : p.Move a es p')
    (h : p.table.IsCounted) : p'.table.IsCounted := by
  -- A refused report leaves the slots alone, and a completion replaces one slot.
  have hreport {id : WriteId} {op : Operation} {g : Option Generation} {t : Table}
      {v : Table.Verdict} (hreport : p.table.recordCompletion id op g = (t, v)) :
      t.IsCounted := by
    rcases Table.recordCompletion_cases hreport with ⟨-, hslots, -, hflight, -⟩ | ⟨s, -, -, -, hrep⟩
    · rw [Table.IsCounted, hslots, hflight]
      exact h
    · exact hrep.isCounted h
  cases hmove with
  | acquire hacquire =>
    obtain ⟨s, -, -, -, hrep⟩ := Table.acquire_granted hacquire
    exact hrep.isCounted h
  | record hphase hissue =>
    obtain ⟨s, -, -, hrep⟩ := Table.recordIssue_ok hissue
    exact hrep.isCounted h
  | mark hphase hmark =>
    obtain ⟨s, -, hrep⟩ := Table.markCheckpointDone_ok hmark
    exact hrep.isCounted h
  | complete hmem hrecord => exact hreport hrecord
  | report hrecord => exact hreport hrecord
  | _ => exact h

/-- The table of a pipeline counts its slots in use (`IsCounted`). -/
theorem Run.isCounted {c : Config} {as : List Action} {es : List Event} (h : Run c as p es) :
    p.table.IsCounted := by
  induction h with
  | start => exact Table.isCounted_create _
  | move hrun hmove ih => exact hmove.isCounted ih

end Pipeline

end WriteAhead
