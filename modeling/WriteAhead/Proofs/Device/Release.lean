import WriteAhead.Proofs.Device.Closing
import WriteAhead.Proofs.Device.Issues

/-!
# What a release leaves behind

An issue looks whether its token is on hold, and parks it in another critical section. A release
lifts the holds, and takes what is parked in another critical section. So an issue can have found
its token on hold before the holds are lifted, and park it after the parked tokens are taken. Such a
token stays parked; every other one is completed, or scheduled.

## Key results

- `Change.parks`: what an action does to the tokens that are parked, or about to be
- `Releasing.change`: how far a release has come, whatever else happens to the device
- `release_leaves_overlooked`: what is parked when all calls have returned is what was overlooked
- `parked_after_release`: a token that stays parked
-/

namespace WriteAhead.Device

/-- The token of a call that has found it on hold and has still to park it. -/
def Call.unparked : Call → List Token
  | .parking t => [t]
  | _ => []

theorem ofIssue_unparked : OfIssue Call.unparked := by
  intro c hc
  cases c <;> first | rfl | exact nomatch hc

/-- The tokens that are about to be parked. -/
def unparked (d : Device) : List Token := d.inHands Call.unparked

namespace Life

/-- The token that an action finds to be on hold. -/
def onHold? (l : Life) (a : Action) : Option Token :=
  (l.tested? a).filter fun t => l.device.holds.contains (t.operation, t.writeId)

/-- The tokens that are about to be parked when an action takes those that are. -/
def missed? (l : Life) : Action → Option (List Token)
  | .step th =>
    match l.device.call? th with
    | some .taking => some l.device.unparked
    | _ => none
  | _ => none

/-- What a run has overlooked when it last took the parked tokens. -/
def overlooked (s : Life) (as : List Action) : List Token := (seen missed? s as).getLast?.getD []

variable {l l' s : Life} {a : Action} {as bs : List Action} {hs hs' : List Happening} {th : Thread}

/-! ## Parked tokens -/

/-- What an action does to the tokens that are parked, or about to be. -/
inductive Parks (l : Life) (a : Action) (l' : Life) : Prop where
  | keeps (hfound : l.onHold? a = none) (hmissed : l.missed? a = none)
      (hheld : l'.device.held = l.device.held)
      (hunparked : l'.device.unparked.Perm l.device.unparked) : Parks l a l'
  | finds {t : Token} (hfound : l.onHold? a = some t) (hmissed : l.missed? a = none)
      (hheld : l'.device.held = l.device.held)
      (hunparked : l'.device.unparked.Perm (t :: l.device.unparked)) : Parks l a l'
  | parks {t : Token} (hfound : l.onHold? a = none) (hmissed : l.missed? a = none)
      (hheld : l'.device.held = l.device.held ++ [t])
      (hunparked : l.device.unparked.Perm (t :: l'.device.unparked)) : Parks l a l'
  | takes (hfound : l.onHold? a = none) (hmissed : l.missed? a = some l.device.unparked)
      (hheld : l'.device.held = [])
      (hunparked : l'.device.unparked = l.device.unparked) : Parks l a l'

/-- A call that begins has nothing to park at once (`unparked`). -/
theorem unparked_begin {d d' : Device} {c : Call} (hcalls : d'.calls = d.calls ++ [(th, c)])
    (hc : c.unparked = []) : d'.unparked = d.unparked := by
  rw [unparked, inHands_begin hcalls, hc, List.append_nil, unparked]

/-- What a section of a call does to the tokens that are parked, or about to be (`unparked`). -/
theorem parks_of_advance {c : Call} {c'? : Option Call} {d' : Device}
    (h : Advance l.device l.now th c c'? d') : Parks l (.step th) { l with device := d' } := by
  have hcall := h.call?_eq
  obtain ⟨before, after, hin⟩ := h.inHands_eq
  obtain ⟨hbefore, hafter⟩ := hin Call.unparked
  -- Sections that neither find a hold nor park leave the tokens on their way as they are.
  have hsame (heq : (c'?.map Call.unparked).getD [] = c.unparked) :
      d'.unparked = l.device.unparked := by
    rw [unparked, hafter, heq, unparked, hbefore]
  have hmissed (hc : c ≠ .taking) : l.missed? (.step th) = none := by
    cases c with
    | taking => exact absurd rfl hc
    | _ => simp [missed?, hcall]
  have hfound (hc : c.untested = []) : l.onHold? (.step th) = none := by
    cases c with
    | testing => simp [Call.untested] at hc
    | _ => simp [onHold?, tested?, hcall]
  obtain ⟨hsection, -, -⟩ := h
  cases hsection with
  | @held t hmem =>
    have hfound : l.onHold? (.step th) = some t := by simp [onHold?, tested?, hcall, hmem]
    refine .finds hfound (hmissed (by simp)) rfl ?_
    rw [unparked, hafter, unparked, hbefore, List.append_assoc, List.append_assoc]
    exact List.perm_middle
  | unheld hmem =>
    have hfound : l.onHold? (.step th) = none := by simp [onHold?, tested?, hcall, hmem]
    exact .keeps hfound (hmissed (by simp)) rfl (.of_eq (hsame rfl))
  | parked =>
    refine .parks (hfound rfl) (hmissed (by simp)) rfl ?_
    rw [unparked, hbefore, unparked, hafter, List.append_assoc, List.append_assoc]
    exact List.perm_middle
  | undelayed | delayed | scheduled | lost | noted | lifted =>
    exact .keeps (hfound rfl) (hmissed (by simp)) rfl (.of_eq (hsame rfl))
  | given =>
    exact .keeps (hfound rfl) (hmissed (by simp)) rfl (.of_eq (hsame (ofIssue_unparked.finish? ..)))
  | taken =>
    exact .takes (hfound rfl) (by simp [missed?, hcall]) rfl (hsame (ofIssue_unparked.finish? ..))

/-- What can happen to the tokens that are parked or about to be, as long as the device is there:
the cases of `Parks`. -/
theorem Change.parks (h : Change l a l') (hopen : l'.isDropped = false) : Parks l a l' := by
  cases h with
  | @issued th t =>
    exact .keeps rfl rfl rfl (.of_eq (unparked_begin (d := l.device.note .issued t) rfl rfl))
  | @held op id =>
    obtain ⟨holds, heq⟩ := l.device.hold_eq op id
    rw [heq]
    exact .keeps rfl rfl rfl (.refl _)
  | releasing => exact .keeps rfl rfl rfl (.of_eq (unparked_begin rfl rfl))
  | advanced hadvance => exact parks_of_advance hadvance
  | fired hfire =>
    obtain ⟨timer, t, others, -, -, -, rfl⟩ := fire_eq_some hfire
    exact .keeps rfl rfl rfl (.of_eq (unparked_begin (d := l.device) rfl rfl))
  | passed => exact .keeps rfl rfl rfl (.refl _)
  | dropped => simp at hopen

/-- What is parked (`held`) or about to be (`unparked`), after an action. -/
theorem Parks.perm (h : Parks l a l') : (l'.device.held ++ l'.device.unparked).Perm
    ((l.missed? a).getD (l.device.held ++ l.device.unparked) ++ (l.onHold? a).toList) := by
  cases h with
  | keeps hfound hmissed hheld hunparked =>
    rw [hfound, hmissed, hheld, Option.getD_none, Option.toList_none, List.append_nil]
    exact hunparked.append_left _
  | finds hfound hmissed hheld hunparked =>
    rw [hfound, hmissed, hheld, Option.getD_none, Option.toList_some, List.append_assoc]
    exact (hunparked.trans (List.perm_append_singleton ..).symm).append_left _
  | parks hfound hmissed hheld hunparked =>
    rw [hfound, hmissed, hheld, Option.getD_none, Option.toList_none, List.append_nil,
      List.append_assoc, List.singleton_append]
    exact hunparked.symm.append_left _
  | takes hfound hmissed hheld hunparked =>
    rw [hfound, hmissed, hheld, hunparked, Option.getD_some, Option.toList_none, List.append_nil,
      List.nil_append]

/-- What is about to be parked (`unparked`) was found to be on hold. -/
theorem Parks.unparked_subperm (h : Parks l a l') :
    l'.device.unparked.Subperm (l.device.unparked ++ (l.onHold? a).toList) := by
  cases h with
  | keeps hfound _ _ hunparked =>
    rw [hfound, Option.toList_none, List.append_nil]
    exact hunparked.subperm
  | finds hfound _ _ hunparked =>
    rw [hfound, Option.toList_some]
    exact (hunparked.trans (List.perm_append_singleton ..).symm).subperm
  | parks hfound _ _ hunparked =>
    rw [hfound, Option.toList_none, List.append_nil]
    exact (List.sublist_cons_self ..).subperm.trans hunparked.symm.subperm
  | takes hfound _ _ hunparked =>
    rw [hfound, hunparked, Option.toList_none, List.append_nil]

/-- What a release misses is what was `unparked` when it took the parked tokens. -/
theorem missed?_eq_some {ts : List Token} (h : l.missed? a = some ts) :
    ts = l.device.unparked := by
  cases a with
  | step th =>
    rw [missed?] at h
    split at h
    · exact (Option.some.inj h).symm
    · exact nomatch h
  | issue | hold | release | fire | pass | drop => exact nomatch h

/-- One more action leaves what was `overlooked`, unless it is the release that takes the parked
tokens. -/
theorem overlooked_concat (hrun : s.run? as = some (l, hs)) (a : Action) :
    overlooked s (as ++ [a]) = (l.missed? a).getD (overlooked s as) := by
  rw [overlooked, seen_concat _ hrun]
  cases l.missed? a with
  | none => rw [Option.toList_none, List.append_nil, Option.getD_none, overlooked]
  | some ts =>
    rw [Option.toList_some, List.getLast?_concat, Option.getD_some, Option.getD_some]

/-! ## The course of a release -/

/-- Without a new `hold`, nothing is on hold again once the holds are lifted. -/
theorem Change.holds_eq_nil (h : Change l a l') (ha : ∀ op id, a ≠ .hold op id)
    (hnil : l.device.holds = []) : l'.device.holds = [] := by
  cases h with
  | held => exact absurd rfl (ha _ _)
  | advanced hadvance =>
    obtain ⟨hsection, -, -⟩ := hadvance
    cases hsection with
    | lifted => rfl
    | _ => exact hnil
  | fired hfire =>
    obtain ⟨timer, t, others, -, -, -, rfl⟩ := fire_eq_some hfire
    exact hnil
  | issued | releasing | passed | dropped => exact hnil

theorem onHold?_eq_none (h : l.device.holds = []) (a : Action) : l.onHold? a = none := by
  simp [onHold?, h]

/-- A thread that has begun a release has lifted the holds. -/
structure Lifted (s : Life) (bs : List Action) (th : Thread) (as : List Action) (l : Life) :
    Prop where
  holds : l.device.holds = []
  /-- Nothing was found to be on hold since. -/
  stops : ∃ earlier later, as = earlier ++ .step th :: later ∧ .step th ∉ earlier ∧
    seen onHold? s (bs ++ as) = seen onHold? s (bs ++ earlier)

/-- How far a thread has come with a release. -/
inductive Releasing (s : Life) (bs : List Action) (th : Thread) (as : List Action) (l : Life) :
    Prop where
  | lifting (hcall : l.device.call? th = some .lifting) (hbefore : .step th ∉ as)
  | taking (hcall : l.device.call? th = some .taking) (hlifted : Lifted s bs th as l)
  | done (hlifted : Lifted s bs th as l)
      (hleft : (l.device.held ++ l.device.unparked).Perm (overlooked s (bs ++ as)))

/-- Once the holds are `Lifted` nothing is found to be on hold any more. -/
theorem Lifted.change (h : Lifted s bs th as l) (hrun : s.run? (bs ++ as) = some (l, hs))
    (hchange : Change l a l') (ha : ∀ op id, a ≠ .hold op id) : Lifted s bs th (as ++ [a]) l' := by
  obtain ⟨hholds, earlier, later, rfl, hearlier, hseen⟩ := h
  refine ⟨hchange.holds_eq_nil ha hholds, earlier, later ++ [a], ?_, hearlier, ?_⟩
  · rw [List.append_assoc, List.cons_append]
  · rw [← List.append_assoc, seen_concat _ hrun, onHold?_eq_none hholds, Option.toList_none,
      List.append_nil, hseen]

/-- Whatever happens, the release gets on or stays where it is, and what it has `overlooked` is
parked or about to be once it has taken the parked tokens. -/
theorem Releasing.change (h : Releasing s bs th as l) (hrun : s.run? (bs ++ as) = some (l, hs))
    (hchange : Change l a l') (hopen : l'.isDropped = false) (ha : ∀ op id, a ≠ .hold op id) :
    Releasing s bs th (as ++ [a]) l' := by
  have hperm := (hchange.parks hopen).perm
  cases h with
  | lifting hcall hbefore =>
    -- The release goes on by its own steps only.
    by_cases heq : a = .step th
    · subst heq
      cases hchange with
      | advanced hadvance =>
        have hnext := hadvance.call?_self
        obtain rfl := Option.some.inj (hadvance.call?_eq.symm.trans hcall)
        have hfound : l.onHold? (.step th) = none := by simp [onHold?, tested?, hcall]
        obtain ⟨hsection, -, -⟩ := hadvance
        cases hsection with
        | lifted =>
          refine .taking hnext ⟨rfl, as, [], rfl, hbefore, ?_⟩
          rw [← List.append_assoc, seen_concat _ hrun, hfound, Option.toList_none, List.append_nil]
    · refine .lifting (hchange.call?_eq heq hcall) ?_
      simpa [hbefore] using Ne.symm heq
  | taking hcall hlifted =>
    have hlifted' := hlifted.change hrun hchange ha
    by_cases heq : a = .step th
    · subst heq
      have hmissed : l.missed? (.step th) = some l.device.unparked := by simp [missed?, hcall]
      refine .done hlifted' ?_
      rw [← List.append_assoc, overlooked_concat hrun, hmissed, Option.getD_some]
      rwa [hmissed, onHold?_eq_none hlifted.holds, Option.getD_some, Option.toList_none,
        List.append_nil] at hperm
    · exact .taking (hchange.call?_eq heq hcall) hlifted'
  | done hlifted hleft =>
    refine .done (hlifted.change hrun hchange ha) (hperm.trans ?_)
    rw [← List.append_assoc, overlooked_concat hrun, onHold?_eq_none hlifted.holds,
      Option.toList_none, List.append_nil]
    cases l.missed? a with
    | none => exact hleft
    | some ts => exact .refl _

/-! ## Whole runs -/

/-- What is about to be parked, and what has been `overlooked`, was found to be on hold. -/
theorem subperm_of_run? (hsound : s.device.Sound) (hcalls : s.device.calls = [])
    (h : s.run? as = some (l, hs)) (hopen : l.isDropped = false) :
    l.device.unparked.Subperm (seen onHold? s as) ∧
      (overlooked s as).Subperm (seen onHold? s as) := by
  revert hopen
  -- Every token on its way to the parked ones was seen on hold, and what a release overlooks is
  -- among them.
  refine run?_induction (P := fun as l => l.isDropped = false →
    l.device.unparked.Subperm (seen onHold? s as) ∧
      (overlooked s as).Subperm (seen onHold? s as)) hsound ?_ ?_ h
  · intro _
    rw [unparked, inHands, hcalls]
    exact ⟨List.nil_subperm, List.nil_subperm⟩
  · intro as l hs a l' hs' hrun _ ih _ hchange hopen
    obtain ⟨hunparked, hoverlooked⟩ := ih (hchange.open_of_open hopen)
    have hnext := (hchange.parks hopen).unparked_subperm
    rw [seen_concat _ hrun, overlooked_concat hrun]
    refine ⟨hnext.trans ((List.subperm_append_right _).mpr hunparked), ?_⟩
    have hgrows := (List.sublist_append_left (seen onHold? s as) (l.onHold? a).toList).subperm
    cases hmissed : l.missed? a with
    | none => exact hoverlooked.trans hgrows
    | some ts =>
      rw [Option.getD_some, missed?_eq_some hmissed]
      exact hunparked.trans hgrows

/-- No token is `dropped` as long as the device is not, if the clock names every deadline. -/
theorem dropped_eq_nil_of_run? (hsound : s.device.Sound) (hclock : s.device.last? = none)
    (h : s.run? as = some (l, hs)) (hopen : l.isDropped = false) : dropped hs = [] :=
  ((flow_of_run? hsound h).2.kept hopen).2.trans (lost_eq_nil_of_run? hclock h)

/-- A thread that has begun a release is in the middle of it or has ended it (`Releasing`). -/
theorem releasing_of_run? (hsound : s.device.Sound)
    (h : s.run? (bs ++ .release th :: as) = some (l, hs)) (hopen : l.isDropped = false)
    (hholds : ∀ op id, .hold op id ∉ as) : Releasing s (bs ++ [.release th]) th as l := by
  rw [run?_append] at h
  obtain ⟨⟨l₀, hs₀⟩, hrun₀, h⟩ := Option.bind_eq_some_iff.mp h
  obtain ⟨⟨l', hs'⟩, hlater, heq⟩ := Option.map_eq_some_iff.mp h
  obtain ⟨rfl, rfl⟩ := Prod.mk.inj heq
  obtain ⟨l₁, hs₁, hs₂, hstep, hrun, rfl⟩ := run?_cons hlater
  have hsound₀ := (flow_of_run? hsound hrun₀).1
  -- Induction on the actions since the release began.
  refine run?_induction (P := fun as l => l.isDropped = false → (∀ op id, .hold op id ∉ as) →
    Releasing s (bs ++ [.release th]) th as l) (flow_of_step hsound₀ hstep).1 ?_ ?_ hrun hopen
    hholds
  · intro _ _
    refine .lifting ?_ List.not_mem_nil
    cases change_of_step hsound₀ hstep with
    | releasing hadmits =>
      exact (call?_begin (d := l₀.device) rfl (admits_iff.mp hadmits).2.2 th).trans (if_pos rfl)
  · intro as l hs a l' hs' hrun _ ih _ hchange hopen hholds
    have hwhole : s.run? (bs ++ [.release th] ++ as) = some (l, hs₀ ++ hs₁ ++ hs) := by
      simp [run?_append, hrun₀, run?, hstep, hrun]
    refine (ih (hchange.open_of_open hopen) fun op id hmem => ?_).change hwhole hchange hopen ?_
    · exact hholds op id (List.mem_append_left _ hmem)
    · rintro op id rfl
      exact hholds op id (List.mem_append_right _ List.mem_cons_self)

/-- What a release comes to in a run: `before` is what was done before it began, and `as` what was
done since. -/
structure Releases (s l : Life) (before : List Action) (th : Thread) (as : List Action)
    (hs : List Happening) : Prop where
  /-- After the holds are lifted no token is found to be on hold. -/
  stops : ∃ earlier later, as = earlier ++ .step th :: later ∧ .step th ∉ earlier ∧
    seen onHold? s (before ++ .release th :: as) = seen onHold? s (before ++ .release th :: earlier)
  /-- What is overlooked is not parked yet when the parked tokens are taken, but was found to be on
  hold, so it was before the holds were lifted. -/
  found : (overlooked s (before ++ .release th :: as)).Subperm
    (seen onHold? s (before ++ .release th :: as))
  /-- That is what is left. -/
  left : l.device.held.Perm (overlooked s (before ++ .release th :: as))
  /-- Every other token was given back, or is on the timer or in the batch of the timer's thread. -/
  others : (issued hs).Perm (reported hs ++ l.device.inHands Call.batch ++ l.device.scheduled ++
    overlooked s (before ++ .release th :: as))

/-- If nothing is put on hold once a release has begun, all that is parked in the end is what the
release has overlooked: the tokens that were found to be on hold before it lifted the holds, and not
yet parked when it took those that were (`Releases`). -/
theorem release_leaves_overlooked {latency : Span} {delays : List (Operation × Span)}
    {holds : List (Operation × WriteId)} {before : List Action}
    (h : (create latency delays holds).run? (before ++ .release th :: as) = some (l, hs))
    (hopen : l.isDropped = false) (hholds : ∀ op id, .hold op id ∉ as)
    (hreturned : ∀ x ∈ l.device.calls, x.1 = .timer) :
    Releases (create latency delays holds) l before th as hs := by
  have hsound := sound_create latency delays holds
  have hd := (flow_of_run? hsound h).1
  have hincoming : l.device.inHands Call.incoming = [] := by
    refine List.flatMap_eq_nil_iff.mpr fun x hx => Call.incoming_of_isCompleting ?_
    exact hd.timer x.2 (hreturned x hx ▸ hx)
  have hunparked : l.device.unparked = [] :=
    inHands_eq_nil_of_ofIssue ofIssue_unparked hincoming
  have hreturned {c : Call} (hcall : l.device.call? th = some c) : c.isCompleting = true := by
    have hmem := mem_calls_of_call? hcall
    exact hd.timer c (hreturned _ hmem ▸ hmem)
  -- The release has returned, so it is at neither of its sections.
  cases releasing_of_run? hsound h hopen hholds with
  | lifting hcall => exact nomatch hreturned hcall
  | taking hcall => exact nomatch hreturned hcall
  | done hlifted hleft =>
    obtain ⟨-, earlier, later, heq, hearlier, hseen⟩ := hlifted
    rw [← List.append_cons, ← List.append_cons] at hseen
    rw [hunparked, List.append_nil, ← List.append_cons] at hleft
    refine ⟨⟨earlier, later, heq, hearlier, hseen⟩, ?_, hleft, ?_⟩
    · exact (subperm_of_run? hsound rfl h hopen).2
    · have hplaces :=
        (conserved_of_run? (show (createOn none latency delays holds).run? _ = _ from h)).places
      rw [hincoming, dropped_eq_nil_of_run? hsound rfl h hopen, List.append_nil,
        List.append_nil] at hplaces
      refine hplaces.trans (List.perm_iff_count.mpr fun t => ?_)
      simp only [List.count_append, hleft.count_eq]
      omega

/-- A token has been found to be on hold, and is not parked yet. -/
def onItsWay : List Action :=
  [.issue (.worker .checkpoint) ⟨7, .writeInode, 1⟩, .step (.worker .checkpoint)]

/-- The token is parked after the holds are lifted and before what is parked is taken; another one
is issued before the holds are lifted, and tested later. -/
def inTime : List Action :=
  let issuer := Thread.operator 1
  let releaser := Thread.operator 0
  [.issue issuer ⟨7, .writeBitmap, 1⟩, .step releaser, .step (.worker .checkpoint), .step issuer,
    .step releaser, .step issuer, .step releaser, .step issuer, .step releaser]

/-- With `inTime` nothing stays parked. -/
theorem release_leaves_overlooked_of_inTime : ∃ l hs,
    (create ⟨5⟩ [] [(.writeInode, 7), (.writeBitmap, 7)]).run?
        (onItsWay ++ .release (.operator 0) :: inTime) = some (l, hs) ∧
      Releases (create ⟨5⟩ [] [(.writeInode, 7), (.writeBitmap, 7)]) l onItsWay (.operator 0)
        inTime hs ∧
      l.device.held = [] ∧ reported hs = [⟨7, .writeInode, 1⟩] ∧
      l.device.scheduled = [⟨7, .writeBitmap, 1⟩] := by
  have hend : ((create ⟨5⟩ [] [(.writeInode, 7), (.writeBitmap, 7)]).run?
      (onItsWay ++ .release (.operator 0) :: inTime)).any
        (fun r => r.1.device.calls = [] && !r.1.isDropped && r.1.device.held = [] &&
          reported r.2 = [⟨7, .writeInode, 1⟩] &&
          r.1.device.scheduled = [⟨7, .writeBitmap, 1⟩]) = true := by decide +kernel
  obtain ⟨⟨l, hs⟩, hrun, h⟩ := (Option.any_eq_true _ _).mp hend
  simp only [Bool.and_eq_true, decide_eq_true_eq, Bool.not_eq_true'] at h
  obtain ⟨⟨⟨⟨hcalls, hopen⟩, hheld⟩, hreported⟩, hscheduled⟩ := h
  have hreturned : ∀ x ∈ l.device.calls, x.1 = .timer := by
    rw [hcalls]
    exact nofun
  exact ⟨l, hs, hrun, release_leaves_overlooked hrun hopen (by simp [inTime]) hreturned, hheld,
    hreported, hscheduled⟩

/-- What is parked is taken before the token is parked. -/
def tooLate : List Action :=
  [.step (.operator 0), .step (.operator 0), .step (.worker .checkpoint)]

/-- With `tooLate` the issue and the release have returned and nothing is on hold any more. The
token is neither completed nor scheduled: it is parked. -/
theorem parked_after_release : ∃ l hs,
    (create ⟨0⟩ [] [(.writeInode, 7)]).run? (onItsWay ++ .release (.operator 0) :: tooLate) =
        some (l, hs) ∧
      l.device.calls = [] ∧ l.device.holds = [] ∧ l.device.held = [⟨7, .writeInode, 1⟩] ∧
      completed hs = [] ∧ l.device.scheduled = [] := by
  have hend : ((create ⟨0⟩ [] [(.writeInode, 7)]).run?
      (onItsWay ++ .release (.operator 0) :: tooLate)).any
        (fun r => r.1.device.calls = [] && r.1.device.holds = [] &&
          r.1.device.held = [⟨7, .writeInode, 1⟩] && completed r.2 = [] &&
          r.1.device.scheduled = []) = true := by decide +kernel
  obtain ⟨⟨l, hs⟩, hrun, h⟩ := (Option.any_eq_true _ _).mp hend
  simp only [Bool.and_eq_true, decide_eq_true_eq] at h
  obtain ⟨⟨⟨⟨hcalls, hholds⟩, hheld⟩, hcompleted⟩, hscheduled⟩ := h
  exact ⟨l, hs, hrun, hcalls, hholds, hheld, hcompleted, hscheduled⟩

end Life

end WriteAhead.Device
