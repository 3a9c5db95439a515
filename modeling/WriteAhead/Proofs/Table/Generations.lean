import WriteAhead.Proofs.Table.Effects

/-!
# A generation belongs to one occupancy

A release leaves the generation of a slot as it is, so a free slot still shows that of its last
occupant; a report is refused there because the slot is not in use. Once the slot is claimed again
its generation is another one, for as long as the count of claims has not wrapped around. So a
report that carries the generation of an occupant that has left is never accepted.

## Key results

- `Run.numbered`: each claim gives out the next number as generation
- `Run.held`: nothing was released since the last claim on a slot in use
- `Run.not_accepts`: who has left is never mistaken for the occupant
-/

namespace WriteAhead.Table

variable {es : List Effect} {e : Effect} {id : WriteId} {s : Slot} {t t' : Table} {g : Generation}

/-- The n-th claim on the slot of a write gives out the generation n, as `Slot.occupy` adds one at
each claim. The number is a `UInt64`, which wraps around. -/
def Numbered (id : WriteId) (es : List Effect) : Prop :=
  ∀ before g after, es = before ++ .claimed id g :: after →
    g = UInt64.ofNat (claims id before + 1)

/-- One more effect keeps `Numbered` if it is no claim or the claim of the next number. -/
theorem Numbered.concat (h : Numbered id es)
    (he : ∀ g, e = .claimed id g → g = UInt64.ofNat (claims id es + 1)) :
    Numbered id (es ++ [e]) := by
  intro before g after heq
  -- By cases on what stands after the claim in question: nothing, or at least the new effect.
  induction after using List.reverseRecOn with
  | nil =>
    -- The claim is the new effect.
    obtain ⟨rfl, hlast⟩ := List.append_inj' heq rfl
    exact he g (List.singleton_inj.mp hlast)
  | append_singleton after e' _ =>
    rw [← List.cons_append, ← List.append_assoc] at heq
    obtain ⟨rfl, -⟩ := List.append_inj' heq rfl
    exact h before g after rfl

/-- What followed a claim without another one is what followed the last claim, `recent`. -/
theorem recent_of_claims_eq_zero {before after : List Effect} (h : claims id after = 0) :
    recent id (before ++ .claimed id g :: after) = after := by
  induction after using List.reverseRecOn with
  | nil => exact recent_claimed g
  | append_singleton after e ih =>
    rw [claims_concat, Nat.add_eq_zero_iff] at h
    have hclaims : e.claims id = false := by
      cases he : e.claims id with
      | false => rfl
      | true => rw [he] at h; exact nomatch h.2
    rw [← List.cons_append, ← List.append_assoc, recent_concat hclaims, ih h.1]

/-! ## Slots in use -/

/-- The slot was not released since the last claim on it, if it is `inUse`. -/
def Held (es : List Effect) (id : WriteId) (s : Slot) : Prop :=
  s.inUse = true → ∀ e ∈ recent id es, e.releases id = false

namespace Held

/-- An effect that is no claim keeps a slot `Held` if it did not release it. -/
theorem concat {s' : Slot} (h : Held es id s) (hclaims : e.claims id = false)
    (hreleases : s'.inUse = true → s.inUse = true ∧ e.releases id = false) :
    Held (es ++ [e]) id s' := by
  intro huse e' he'
  rw [recent_concat hclaims, List.mem_append, List.mem_singleton] at he'
  rcases he' with he' | rfl
  · exact h (hreleases huse).1 e' he'
  · exact (hreleases huse).2

/-- Nothing is recent after a claim, so the slot is `Held` whatever it was before. -/
theorem claim (s' : Slot) : Held (es ++ [.claimed id g]) id s' := by
  intro _ e he
  rw [recent_claimed] at he
  exact absurd he List.not_mem_nil

/-- A slot that `settle` leaves in use was not released: it was not drained. -/
theorem settle {s' : Slot} (h : Held es id s) (huse : s'.inUse = s.inUse)
    (hclaims : e.claims id = false)
    (hreleases : e.releases id = (s'.inUse && s'.isDrained)) : Held (es ++ [e]) id s'.settle := by
  refine h.concat hclaims fun hstays => ?_
  cases hdrained : s'.inUse && s'.isDrained with
  | true =>
    rw [Slot.settle, if_pos hdrained] at hstays
    cases hstays
  | false =>
    rw [Slot.settle, hdrained] at hstays
    exact ⟨huse.symm.trans hstays, hreleases.trans hdrained⟩

end Held

/-- A step keeps all slots in use `Held`. -/
theorem Effected.held {e? : Option Effect} (h : Effected t e? t')
    (hall : ∀ id s, t.slot? id = some s → Held es id s) :
    ∀ id s, t'.slot? id = some s → Held (es ++ e?.toList) id s := by
  refine h.preserves hall (fun h hid => ?_) (fun _ _ => .claim _) (fun h huse => ?_)
    (fun h huse _ => ?_) (fun h => ?_)
  · -- The effect is on another slot, so it neither claims nor releases this one.
    exact h.concat (Effect.claims_of_slot_ne hid) fun huse =>
      ⟨huse, Effect.releases_of_slot_ne hid⟩
  · exact h.concat rfl fun _ => ⟨huse, rfl⟩
  · exact h.settle rfl rfl (by simp [Effect.releases, Slot.complete, huse])
  · exact h.settle rfl rfl (by simp [Effect.releases, Slot.mark])

/-! ## Occupants that have left -/

/-- An occupant of this generation has left the slot of a write: after its claim the slot was
released. -/
def Departed (id : WriteId) (g : Generation) (es : List Effect) : Prop :=
  ∃ e ∈ es, e.releases id = true ∧ [.claimed id g, e].Sublist es

instance (id : WriteId) (g : Generation) (es : List Effect) : Decidable (Departed id g es) :=
  inferInstanceAs (Decidable (∃ e ∈ es, _))

/-- The claim of an occupant that has `Departed` stands before a release. -/
theorem Departed.split (h : Departed id g es) :
    ∃ before after, es = before ++ .claimed id g :: after ∧ ∃ e ∈ after, e.releases id = true := by
  obtain ⟨e, -, hreleases, hsub⟩ := h
  obtain ⟨front, back, rfl, hclaim, he⟩ := List.cons_sublist_iff.mp hsub
  obtain ⟨before, mid, rfl⟩ := List.append_of_mem hclaim
  refine ⟨before, mid ++ back, by simp, e, ?_, hreleases⟩
  exact List.mem_append_right _ (List.singleton_sublist.mp he)

namespace Monitor

variable {κ : Type} [DecidableEq κ] {m : Monitor κ} {as : List (Action κ)} {capacity : Nat}

/-- Each claim in a run gives out the next number as generation, since the slot has counted all
claims before it (`Run.accounts`). -/
theorem Run.numbered (h : Run capacity as m es) (id : WriteId) : Numbered id es := by
  induction h with
  | start => exact fun before g after heq => by simp at heq
  | @step as m m' es a y hrun hstep ih =>
    have heffected := effected_of_step hstep
    cases he : m.effect? a y with
    | none => rwa [Option.toList_none, List.append_nil]
    | some e =>
      refine ih.concat fun g hclaim => ?_
      rw [he, hclaim] at heffected
      -- Only a claim has to be looked at, and it finds the count of claims in the free slot.
      cases heffected with
      | claimed hfree hrep =>
        rw [UInt64.ofNat_add, ← (hrun.accounts _ _ hrep.old).generation_eq]
        rfl

/-- Only slots of the table are claimed: `acquire` refuses an id beyond the `capacity`. -/
theorem Run.lt_of_claimed (h : Run capacity as m es) (hmem : .claimed id g ∈ es) :
    id < capacity := by
  induction h with
  | start => exact absurd hmem List.not_mem_nil
  | @step as m m' es a y hrun hstep ih =>
    rcases List.mem_append.mp hmem with hmem | hmem
    · exact ih hmem
    · have heffected := effected_of_step hstep
      rw [Option.mem_toList] at hmem
      rw [hmem] at heffected
      cases heffected with
      | claimed hfree hrep => exact hrun.size_eq ▸ (Array.getElem?_eq_some_iff.mp hrep.old).1

/-- Nothing was released since the last claim on a slot in use, and `Held` is all that is needed of
the past of an occupant. -/
theorem Run.held (h : Run capacity as m es) : ∀ id s, m.table.slot? id = some s → Held es id s := by
  induction h with
  | start => exact fun id s hs huse => by simp [inUse_of_create capacity hs] at huse
  | step hrun hstep ih => exact (effected_of_step hstep).held ih

/-- A slot in use was claimed again after an occupant had left it, since otherwise the release would
be `recent`. -/
private theorem Run.reclaimed {before after : List Effect}
    (h : Run capacity as m (before ++ .claimed id g :: after)) (hs : m.table.slot? id = some s)
    (huse : s.inUse = true) (hreleased : ∃ e ∈ after, e.releases id = true) :
    0 < claims id after := by
  rw [Nat.pos_iff_ne_zero]
  intro hzero
  obtain ⟨e, hmem, hreleases⟩ := hreleased
  have hheld := h.held id s hs huse e (by rwa [recent_of_claims_eq_zero hzero])
  rw [hreleases] at hheld
  cases hheld

/-- A report for an occupant that has `Departed` is not accepted, as long as the `UInt64`
generations do not wrap around. -/
theorem Run.not_accepts (h : Run capacity as m es) (hleft : Departed id g es)
    (hfew : claims id es < UInt64.size) :
    ∃ s, m.table.slot? id = some s ∧ s.accepts (some g) = false := by
  obtain ⟨before, after, rfl, hreleased⟩ := hleft.split
  have hmem : .claimed id g ∈ before ++ .claimed id g :: after :=
    List.mem_append_right _ List.mem_cons_self
  have hlt : id < m.table.slots.size := h.size_eq ▸ h.lt_of_claimed hmem
  obtain ⟨s, hs⟩ : ∃ s, m.table.slot? id = some s := ⟨_, Array.getElem?_eq_getElem hlt⟩
  refine ⟨s, hs, ?_⟩
  cases huse : s.inUse with
  | false =>
    rw [Slot.accepts, huse]
    exact Bool.false_and _
  | true =>
    have hclaims : claims id (before ++ .claimed id g :: after) =
        claims id before + (claims id after + 1) := by
      have hclaims : (Effect.claimed id g).claims id = true := beq_self_eq_true id
      rw [claims, List.countP_append, List.countP_cons_of_pos hclaims]
      rfl
    have hagain := h.reclaimed hs huse hreleased
    -- Two claims have different numbers, both too small to wrap around.
    have hgen := (h.accounts id s hs).generation_eq
    have hnumber := h.numbered id before g after rfl
    rw [hclaims] at hgen hfew
    have hne : g ≠ s.generation := by
      rw [hgen, hnumber]
      intro heq
      have heq := congrArg UInt64.toNat heq
      rw [UInt64.toNat_ofNat_of_lt' (by omega), UInt64.toNat_ofNat_of_lt' (by omega)] at heq
      omega
    rw [Slot.accepts, huse, Bool.true_and]
    exact beq_eq_false_iff_ne.mpr hne

end Monitor

end WriteAhead.Table
