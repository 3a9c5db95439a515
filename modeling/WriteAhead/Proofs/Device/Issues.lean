import WriteAhead.Proofs.Device.Advance

/-!
# Issues one after the other

While issues do not overlap, a single call has the token of an issue in its hands. What it has there
on the way from one point of the call to another is all that came to the first point and has not
come to the second. So the tokens come to every point in the order in which they were issued.

## Key results

- `Advance.inHands_of_alone`: the call of a single issue has all there is of issues
- `Passage.of_run?`: between two points there is what came to the one and not to the other
- `IssuesApart.unheld_sublist`: tokens are found not to be on hold in the order of their issues
-/

namespace WriteAhead.Device

/-! ## What issues have in their hands -/

/-- Whether `f` asks a call only for the token that it issues. -/
def OfIssue (f : Call → List Token) : Prop := ∀ c, c.incoming = [] → f c = []

theorem ofIssue_incoming : OfIssue Call.incoming := fun _ hc => hc

/-- The token of a call that has still to see whether it is on hold. -/
def Call.untested : Call → List Token
  | .testing t => [t]
  | _ => []

theorem ofIssue_untested : OfIssue Call.untested := by
  intro c hc
  cases c <;> first | rfl | exact nomatch hc

theorem Call.length_incoming_le (c : Call) : c.incoming.length ≤ 1 := by
  cases c <;> simp [incoming]

/-- A call that completes tokens (`finish?`) has none of an issue. -/
theorem OfIssue.finish? {f : Call → List Token} (hf : OfIssue f) (ts : List Token)
    (released : Bool) : ((Call.finish? ts released).map f).getD [] = [] := by
  cases ts with
  | nil => rfl
  | cons t others => exact hf _ rfl

/-- A call that has no token of an issue gets none in any `Section`. -/
theorem Section.incoming_eq_nil {d d₁ : Device} {now : Instant} {c : Call} {c'? : Option Call}
    (h : Section d now c d₁ c'?) (hc : c.incoming = []) :
    (c'?.map Call.incoming).getD [] = [] := by
  cases h with
  | held | unheld | parked | undelayed | delayed | scheduled | lost => exact nomatch hc
  | noted | lifted => rfl
  | given | taken => exact ofIssue_incoming.finish? _ _

/-- While no issue is in progress (`incoming`) no call has anything of an issue in its hands. -/
theorem inHands_eq_nil_of_ofIssue {d : Device} {f : Call → List Token} (hf : OfIssue f)
    (h : d.inHands Call.incoming = []) : d.inHands f = [] :=
  List.flatMap_eq_nil_iff.mpr fun x hx => hf x.2 (List.flatMap_eq_nil_iff.mp h x hx)

namespace Advance

variable {d d' : Device} {now : Instant} {th : Thread} {c : Call} {c'? : Option Call}
  {f : Call → List Token}

/-- A section of a call that does not issue (`Advance`) leaves the issues in progress. -/
theorem inHands_of_ofIssue (h : Advance d now th c c'? d') (hf : OfIssue f) (hc : c.incoming = []) :
    d'.inHands f = d.inHands f := by
  obtain ⟨before, after, hin⟩ := h.inHands_eq
  obtain ⟨hsection, -, -⟩ := h
  have hnext := hsection.incoming_eq_nil hc
  rw [(hin f).1, (hin f).2, hf c hc]
  cases c'? with
  | none => rfl
  | some c' => rw [Option.map_some, Option.getD_some, hf c' hnext]

/-- While a single issue is in progress (`incoming`) all tokens of issues are in the hands of its
call. -/
theorem inHands_of_alone (h : Advance d now th c c'? d') (hf : OfIssue f)
    (halone : (d.inHands Call.incoming).length ≤ 1) (hc : c.incoming ≠ []) :
    d.inHands f = f c ∧ d'.inHands f = (c'?.map f).getD [] := by
  obtain ⟨before, after, hin⟩ := h.inHands_eq
  have hlength := List.length_pos_iff.mpr hc
  rw [(hin Call.incoming).1] at halone
  simp only [List.length_append] at halone
  have hnil (xs : List (Thread × Call)) (hxs : (xs.flatMap (Call.incoming ·.2)).length = 0) :
      xs.flatMap (f ·.2) = [] := by
    have hxs := List.flatMap_eq_nil_iff.mp (List.eq_nil_of_length_eq_zero hxs)
    exact List.flatMap_eq_nil_iff.mpr fun x hx => hf x.2 (hxs x hx)
  rw [(hin f).1, (hin f).2, hnil before (by omega), hnil after (by omega)]
  simp

end Advance

namespace Life

/-! ## From one point of an issue to another -/

/-- The token that an action issues. -/
def Action.issued? : Action → Option Token
  | .issue _ t => some t
  | _ => none

/-- The token that an action issues while another issue is in progress. -/
def overlap? (l : Life) : Action → Option Token
  | .issue _ t => if l.device.inHands Call.incoming = [] then none else some t
  | _ => none

/-- The token of which an action finds out whether it is on hold. -/
def tested? (l : Life) : Action → Option Token
  | .step th =>
    match l.device.call? th with
    | some (.testing t) => some t
    | _ => none
  | _ => none

/-- The token that an action finds not to be on hold. -/
def unheld? (l : Life) (a : Action) : Option Token :=
  (l.tested? a).filter fun t => !l.device.holds.contains (t.operation, t.writeId)

/-- No issue begins before the one before it has returned. -/
def IssuesApart (s : Life) (as : List Action) : Prop := seen overlap? s as = []

/-- Whether an action belongs to an issue: it begins one, or goes on with one. -/
def Action.IsOfIssue (a : Action) (l : Life) : Prop :=
  match a with
  | .issue .. => True
  | .step th => ∃ c, l.device.call? th = some c ∧ c.incoming ≠ []
  | _ => False

/-- What issues have in their hands, as far as `f` asks for it, has come to one point of the call
and not yet to another one. -/
structure Passage (f : Call → List Token) (enter? leave? : Life → Action → Option Token) :
    Prop where
  ofIssue : OfIssue f
  begins : ∀ l th t, (enter? l (.issue th t)).toList = f (.testing t) ∧
    leave? l (.issue th t) = none
  goesOn : ∀ l th c c'? d' hs, l.device.Sound → l.device.last? = none →
    l.step (.step th) = some ({ l with device := d' }, hs) →
    Advance l.device l.now th c c'? d' → c.incoming ≠ [] →
      f c ++ (enter? l (.step th)).toList = (leave? l (.step th)).toList ++ (c'?.map f).getD []
  quiet : ∀ (l : Life) (a : Action), ¬ a.IsOfIssue l → enter? l a = none ∧ leave? l a = none

variable {l l' s : Life} {a : Action} {as : List Action} {hs hs' : List Happening}
  {f : Call → List Token} {enter? leave? : Life → Action → Option Token}

instance : Decidable (IssuesApart s as) := inferInstanceAs (Decidable (_ = []))

/-- A `Change` that does not belong to an issue leaves the issues in progress. -/
theorem Change.inHands_of_not_isOfIssue (hf : OfIssue f) (h : Change l a l')
    (ha : ¬ a.IsOfIssue l) : l'.device.inHands f = l.device.inHands f := by
  -- The calls that begin here do not issue.
  have hbegin {d d' : Device} {th : Thread} {c : Call} (hcalls : d'.calls = d.calls ++ [(th, c)])
      (hc : c.incoming = []) : d'.inHands f = d.inHands f := by
    rw [inHands_begin hcalls, hf c hc, List.append_nil]
  cases h with
  | issued => exact absurd trivial ha
  | @held op id =>
    obtain ⟨holds, heq⟩ := l.device.hold_eq op id
    rw [heq]
    rfl
  | releasing => exact hbegin rfl rfl
  | passed | dropped => rfl
  | fired hfire =>
    obtain ⟨timer, t, others, -, -, -, rfl⟩ := fire_eq_some hfire
    exact hbegin rfl rfl
  | advanced h =>
    refine h.inHands_of_ofIssue hf ?_
    by_contra hc
    exact ha ⟨_, h.call?_eq, hc⟩

/-- While issues do not overlap (`IssuesApart`), tokens leave a passage in the order in which they
entered it, and those that have not left are in the hands of a call. An issue leaves with its token
only, as the clock names every deadline. -/
theorem Passage.of_run? (h : Passage f enter? leave?) (hsound : s.device.Sound)
    (hclock : s.device.last? = none) (hcalls : s.device.calls = [])
    (hrun : s.run? as = some (l, hs)) (hapart : IssuesApart s as) :
    seen leave? s as ++ l.device.inHands f = seen enter? s as := by
  -- There is at most one issue in progress.
  suffices hall : (l.device.inHands Call.incoming).length ≤ 1 ∧
      seen leave? s as ++ l.device.inHands f = seen enter? s as from hall.2
  refine run?_induction (P := fun as l => IssuesApart s as →
    (l.device.inHands Call.incoming).length ≤ 1 ∧
      seen leave? s as ++ l.device.inHands f = seen enter? s as) hsound (fun _ => ?_) ?_ hrun hapart
  · simp [inHands, hcalls, seen]
  · intro as l hs a l' hs' hrun hd ih hstep hchange hapart
    rw [IssuesApart, seen_concat _ hrun, List.append_eq_nil_iff] at hapart
    obtain ⟨halone, hpassage⟩ := ih hapart.1
    rw [seen_concat _ hrun, seen_concat _ hrun]
    by_cases ha : a.IsOfIssue l
    · cases hchange with
      | @issued th t hadmits =>
        have hnone : l.device.inHands Call.incoming = [] := by
          simpa [overlap?] using hapart.2
        have hbegin {g : Call → List Token} (hg : OfIssue g) :
            (l.device.issue th t).inHands g = g (.testing t) := by
          have hin : (l.device.issue th t).inHands g = l.device.inHands g ++ g (.testing t) :=
            inHands_begin (d := l.device.note .issued t) rfl g
          rw [hin, inHands_eq_nil_of_ofIssue hg hnone, List.nil_append]
        obtain ⟨henter, hleave⟩ := h.begins l th t
        rw [inHands_eq_nil_of_ofIssue h.ofIssue hnone, List.append_nil] at hpassage
        rw [hbegin ofIssue_incoming, hbegin h.ofIssue, henter, hleave, hpassage]
        exact ⟨Nat.le_refl 1, by simp⟩
      | @advanced th c c'? d' hadvance =>
        have hclock' := (last?_of_run? hrun).trans hclock
        obtain ⟨c₁, hcall, hc⟩ := ha
        obtain rfl := Option.some.inj (hadvance.call?_eq.symm.trans hcall)
        obtain ⟨hbefore, hafter⟩ := hadvance.inHands_of_alone h.ofIssue halone hc
        rw [hbefore] at hpassage
        rw [(hadvance.inHands_of_alone ofIssue_incoming halone hc).2, hafter, ← hpassage,
          List.append_assoc, List.append_assoc,
          h.goesOn l th _ c'? d' hs' hd hclock' hstep hadvance hc]
        refine ⟨?_, rfl⟩
        cases c'? with
        | none => exact Nat.zero_le 1
        | some c' => exact c'.length_incoming_le
      | held | releasing | passed | dropped | fired => exact ha.elim
    · obtain ⟨henter, hleave⟩ := h.quiet l a ha
      rw [hchange.inHands_of_not_isOfIssue ofIssue_incoming ha,
        hchange.inHands_of_not_isOfIssue h.ofIssue ha, henter, hleave]
      simpa using ⟨halone, hpassage⟩

/-! ## The order in which tokens are tested -/

/-- What is `seen` of a run, if it depends on the actions alone. -/
theorem seen_of_action {α : Type} (f : Action → Option α) (h : s.run? as = some (l, hs)) :
    seen (fun _ a => f a) s as = as.filterMap f := by
  induction as generalizing s hs with
  | nil => rfl
  | cons a as ih =>
    obtain ⟨s₁, hs₁, hs₂, hstep, hrun, rfl⟩ := run?_cons h
    cases hf : f a <;> simp [seen, hstep, ih hrun, hf]

/-- What is `seen` of a run, if it depends on something else that is seen. -/
theorem seen_bind {α β : Type} (f : Life → Action → Option α) (g : α → Option β) (s : Life)
    (as : List Action) :
    seen (fun l a => (f l a).bind g) s as = (seen f s as).filterMap g := by
  induction as generalizing s with
  | nil => rfl
  | cons a as ih =>
    rw [seen, seen, List.filterMap_append]
    congr 1
    · cases hf : f s a with
      | none => rfl
      | some x => cases hg : g x <;> simp [hg]
    · cases s.step a with
      | none => rfl
      | some r => exact ih r.1

/-- What is `seen` of a run as a function of something else that is seen. -/
theorem seen_map {α β : Type} (f : Life → Action → Option α) (g : α → β) (s : Life)
    (as : List Action) : seen (fun l a => (f l a).map g) s as = (seen f s as).map g := by
  simp only [Option.map_eq_bind, seen_bind, Function.comp_def, List.filterMap_eq_map']

/-- What sees less of each action sees less of a run (`seen`). -/
theorem seen_sublist {α : Type} {f g : Life → Action → Option α}
    (h : ∀ l a, (f l a).toList.Sublist (g l a).toList) (s : Life) (as : List Action) :
    (seen f s as).Sublist (seen g s as) := by
  induction as generalizing s with
  | nil => exact List.Sublist.refl []
  | cons a as ih =>
    refine (h s a).append ?_
    cases s.step a with
    | none => exact List.Sublist.refl []
    | some r => exact ih r.1

/-- A token is tested for a hold once it has been issued; in between it is in `Call.untested`. -/
theorem passage_tested : Passage Call.untested (fun _ a => a.issued?) tested? where
  ofIssue := ofIssue_untested
  begins l th t := ⟨rfl, rfl⟩
  goesOn l th c c'? d' hs hd hclock hstep hadvance hc := by
    have hcall := hadvance.call?_eq
    obtain ⟨hsection, -, -⟩ := hadvance
    -- Only the first section of an issue looks whether its token is on hold.
    cases hsection <;> first
      | exact absurd rfl hc
      | simp [tested?, hcall, Call.untested, Action.issued?]
  quiet l a ha := by
    cases a with
    | issue => exact absurd trivial ha
    | step th =>
      refine ⟨rfl, ?_⟩
      rw [tested?]
      split
      · rename_i hcall
        exact absurd ⟨_, hcall, nofun⟩ ha
      · rfl
    | hold | release | fire | pass | drop => exact ⟨rfl, rfl⟩

/-- A token that is found not to be on hold (`unheld?`) was tested. -/
theorem unheld?_sublist (l : Life) (a : Action) :
    (l.unheld? a).toList.Sublist (l.tested? a).toList := by
  rw [unheld?]
  cases l.tested? a with
  | none => exact List.Sublist.refl []
  | some t =>
    rw [Option.filter_some]
    split
    · exact List.Sublist.refl _
    · exact List.nil_sublist _

/-- Tokens are found not to be on hold (`unheld?`) in the order in which they were issued, if issues
do not overlap. -/
theorem IssuesApart.unheld_sublist (hapart : IssuesApart s as) (hsound : s.device.Sound)
    (hclock : s.device.last? = none) (hcalls : s.device.calls = [])
    (hrun : s.run? as = some (l, hs)) :
    (seen unheld? s as).Sublist (as.filterMap Action.issued?) := by
  have hpassage := passage_tested.of_run? hsound hclock hcalls hrun hapart
  rw [← seen_of_action _ hrun, ← hpassage]
  exact (seen_sublist unheld?_sublist s as).trans (List.sublist_append_left ..)

end Life

end WriteAhead.Device
