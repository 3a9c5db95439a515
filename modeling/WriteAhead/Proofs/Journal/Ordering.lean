import WriteAhead.Proofs.Journal.Projection
import WriteAhead.Proofs.Journal.Tokens

/-!
# Write-ahead ordering

An operation of a stage is issued only after all operations of the earlier stages were reported
complete, and the client is told of a write only after all of its operations were. The reports are
those since the claim that began the occupancy of the slot, so they are for this write and not for
an earlier one of the same id. With tokens alone, each of them was made with a token that was issued
in the same time.

## Key results

- `Pipeline.Chronicle.secured`: what a write at a place has behind it
- `Journal.Run.write_ahead`: the order of issues, reports and notifications
-/

namespace WriteAhead

namespace Pipeline

variable {p p' : Pipeline} {a : Journal.Action} {es es' : List Event} {s : Stage} {t : Token}
  {id : WriteId}

/-! ## Moves that issue and tell -/

/-- A `Move` that issues an operation is one of a worker that had it still to issue. -/
theorem Move.issued (hmove : p.Move a es' p') (h : .issued s t ∈ es') :
    ∃ left table, p.workers.get s = .issuing t.writeId (t.operation :: left) ∧
      p.table.recordIssue t.writeId = .ok (table, t.generation) := by
  cases hmove with
  | note hes | turnAway hes | stop hes | advance hes | turn hes => exact absurd (hes _ h) nofun
  | record hphase hissue =>
    obtain ⟨rfl, rfl⟩ := Event.issued.inj (List.mem_singleton.mp h)
    exact ⟨_, _, hphase, hissue⟩
  | _ => simp at h

/-- A `Move` that hands a token over is one of a worker that holds the token. -/
theorem Move.handed (hmove : p.Move a es' p') (h : .handed s t ∈ es') :
    ∃ left, p.workers.get s = .handing t left := by
  cases hmove with
  | note hes | turnAway hes | stop hes | advance hes | turn hes => exact absurd (hes _ h) nofun
  | hand hphase | devicePanic hphase =>
    obtain ⟨rfl, rfl⟩ := Event.handed.inj (List.mem_singleton.mp h)
    exact ⟨_, hphase⟩
  | _ => simp at h

/-- A `Move` that tells the client is one of a worker that is about to. -/
theorem Move.notified (hmove : p.Move a es' p') (h : .notified id ∈ es') :
    ∃ s, p.workers.get s = .notifying id := by
  cases hmove with
  | note hes | turnAway hes | stop hes | advance hes | turn hes => exact absurd (hes _ h) nofun
  | notify hphase | clientPanic hphase =>
    obtain rfl := Event.notified.inj (List.mem_singleton.mp h)
    exact ⟨_, hphase⟩
  | _ => simp at h

/-! ## What a write has behind it -/

/-- The slot of a write has an occupant, whose history ends `es`, and all operations in `ops` were
reported complete for it. -/
structure Secured (table : Table) (es : List Event) (id : WriteId) (slot : Slot)
    (ops : Operation → Prop) : Prop where
  slot?_eq : table.slot? id = some slot
  inUse : slot.inUse = true
  occupancy : Occupancy es id slot
  contains : ∀ op, ops op → slot.completed.contains op = true
  reported : ∀ op, ops op → op ∈ completions id (since id es)

/-- A write has behind it the operations of the stages whose joins it has passed: `Place.passed`
counts them. -/
theorem Chronicle.secured {place : Place} (h : p.Chronicle es) (hmem : place ∈ p.places) :
    ∃ slot, place.Fits es slot ∧
      Secured p.table es place.id slot fun op => op.stage.index < place.passed := by
  obtain ⟨slot, hslot, hfits⟩ := h.placed place hmem
  have hoccupancy := h.occupied _ slot hslot hfits.inUse
  exact ⟨slot, hfits, hslot, hfits.inUse, hoccupancy, hfits.passed,
    fun op hop => (hoccupancy.contains_iff op).mp (hfits.passed op hop)⟩

/-- A worker issues only what comes next for the occupant of the slot, with all earlier stages
behind it (`Secured`). -/
private theorem secured_of_issued {c : Config} {as : List Journal.Action} (hrun : Run c as p es)
    (hmove : p.Move a es' p') (h : .issued s t ∈ es') :
    t.operation.stage = s ∧ ∃ slot, slot.generation = t.generation ∧
      Secured p.table es t.writeId slot fun op => op.stage.index < s.index := by
  obtain ⟨left, table, hphase, hissue⟩ := hmove.issued h
  have hsuits := hrun.suited s
  rw [hphase] at hsuits
  have hmem := mem_places_of_phase (p := p) (s := s) (by rw [hphase]; rfl)
  obtain ⟨slot, -, hsecured⟩ := hrun.chronicle.secured hmem
  obtain ⟨slot', -, hgen, hrep⟩ := Table.recordIssue_ok hissue
  have hsame : slot' = slot := by
    have := hrep.old
    rw [hsecured.slot?_eq, Option.some.injEq] at this
    exact this.symm
  exact ⟨hsuits _ List.mem_cons_self, slot, by rw [hgen, hsame], hsecured⟩

/-- A worker hands over only the token of what it has issued, with all earlier stages behind it
(`Secured`). -/
private theorem secured_of_handed {c : Config} {as : List Journal.Action} (hrun : Run c as p es)
    (hmove : p.Move a es' p') (h : .handed s t ∈ es') :
    t.operation.stage = s ∧ ∃ slot, slot.generation = t.generation ∧
      Secured p.table es t.writeId slot fun op => op.stage.index < s.index := by
  obtain ⟨left, hphase⟩ := hmove.handed h
  have hsuits := hrun.suited s
  rw [hphase] at hsuits
  have hmem := mem_places_of_phase (p := p) (s := s) (by rw [hphase]; rfl)
  obtain ⟨slot, hfits, hsecured⟩ := hrun.chronicle.secured hmem
  exact ⟨hsuits.1, slot, (hfits.token t rfl).2.1.symm, hsecured⟩

/-- The client is told only of a write all of whose operations were reported complete
(`Secured`). -/
theorem secured_of_notified {c : Config} {as : List Journal.Action} (hrun : Run c as p es)
    (hmove : p.Move a es' p') (h : .notified id ∈ es') :
    ∃ slot, slot.completed = .full ∧ Secured p.table es id slot fun _ => True := by
  obtain ⟨s, hphase⟩ := hmove.notified h
  have hsuits := hrun.suited s
  rw [hphase] at hsuits
  have hmem := mem_places_of_phase (p := p) (s := s) (by rw [hphase]; rfl)
  obtain ⟨slot, -, hsecured⟩ := hrun.chronicle.secured hmem
  have hall : ∀ op : Operation, op.stage.index < s.index + 1 := by
    intro op
    rw [(Stage.after_of_last hsuits).2]
    exact Nat.lt_succ_of_le op.stage.index_le
  exact ⟨slot, OpSet.eq_full_iff.mpr fun op => hsecured.contains op (hall op),
    hsecured.slot?_eq, hsecured.inUse, hsecured.occupancy,
    fun op _ => hsecured.contains op (hall op), fun op _ => hsecured.reported op (hall op)⟩

end Pipeline

namespace Journal

open Pipeline (Secured)

/-- In every run, a worker issues an operation only when all operations of the earlier stages were
reported complete for the occupant of the slot (`Secured`), and the client is told of a write only
when all its operations were. Without reports by write id, each report was made with a token that
was issued for the same occupant before (`Backed`). -/
theorem Run.write_ahead {c : Config} {as : List Action} {j j' : Journal} {es es' : List Event}
    {a : Action} (hrun : Run c as j es) (hstep : j.step a = some (j', es')) :
    (∀ s t, .issued s t ∈ es' ∨ .handed s t ∈ es' →
      t.operation.stage = s ∧ ∃ slot, slot.generation = t.generation ∧
        Secured j.table.table es t.writeId slot fun op => op.stage.index < s.index) ∧
    (∀ id, .notified id ∈ es' →
      ∃ slot, slot.completed = .full ∧ Secured j.table.table es id slot fun _ => True) ∧
    ((∀ id op, .report id op ∉ as) → ∀ id slot, j.table.table.slot? id = some slot →
      slot.inUse = true → Backed id slot.generation (since id es)) := by
  have hmove := hrun.move hstep
  refine ⟨fun s t h => ?_, fun id h => ?_, fun has id slot hslot huse => ?_⟩
  · rcases h with h | h
    · exact Pipeline.secured_of_issued hrun.pipeline hmove h
    · exact Pipeline.secured_of_handed hrun.pipeline hmove h
  · exact Pipeline.secured_of_notified hrun.pipeline hmove h
  · exact ((hrun.pipeline.ledger has).vouched id slot hslot huse).backed

/-- The second stage issues its operation for a write of which the first stage is done. -/
theorem write_ahead_of_commit :
    ∃ j es j' es' slot, Run { bufferSize := 1, maxRequests := 1 }
        (submission 0 0 ++ passage 0 1 .metadata ++
          [.act (.worker .commit), .act (.worker .commit)]) j es ∧
      j.step (.act (.worker .commit)) = some (j', es') ∧
      es' = [.issued .commit ⟨0, .journalTxe, 1⟩] ∧ slot.generation = 1 ∧
      (Secured j.table.table es 0 slot fun op => op.stage.index < Stage.commit.index) ∧
      Backed 0 slot.generation (since 0 es) := by
  have hnext : ((trace? { bufferSize := 1, maxRequests := 1 }
      (submission 0 0 ++ passage 0 1 .metadata ++
        [.act (.worker .commit), .act (.worker .commit)])).bind fun r =>
          (r.1.step (.act (.worker .commit))).map (·.2)) =
      some [.issued .commit ⟨0, .journalTxe, 1⟩] := by decide +kernel
  obtain ⟨j, es, j', hrun, hstep⟩ := Run.of_trace?_step hnext
  obtain ⟨hissued, -, hbacked⟩ := Run.write_ahead hrun hstep
  obtain ⟨-, slot, hgen, hsecured⟩ := hissued .commit ⟨0, .journalTxe, 1⟩ (.inl (by simp))
  exact ⟨j, es, j', _, slot, hrun, hstep, rfl, hgen, hsecured,
    hbacked (by simp [submission, passage, Stage.operations, Operation.all]) 0 slot
      hsecured.slot?_eq hsecured.inUse⟩

end Journal

end WriteAhead
