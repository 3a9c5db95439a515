import WriteAhead.Proofs.Device.Calls
import WriteAhead.Proofs.Journal.Ordering
import WriteAhead.Simulation

/-!
# Runs of a journal on a simulated device

A run begins with the start of a journal on a new device, to which its workers issue, and goes on by
any sequence of possible actions. `Motion` says what a step comes to for the journal and for the
device. Since workers issue to the device what they hand over, the device has just the tokens that
the journal counts as handed over, so they come back through the device alone.

## Key results

- `Wired`: the device has the tokens that were handed over
- `motion_of_step`: what a step comes to
- `Run.actions`, `Run.journal`: what happens to the journal in a run is a run of the journal
-/

namespace WriteAhead

namespace Pipeline

variable {p p' : Pipeline} {a : Journal.Action} {es : List Event}

/-- A worker hands one token over, or nothing is `handed` over. Tokens that were handed over are
completed or dropped, or they stay. -/
theorem Move.handing (hmove : p.Move a es p') :
    (∃ s t, es = [.handed s t] ∧ (a = .act (.worker s) ∨ a = .devicePanic s) ∧
        p'.outstanding = p.outstanding ++ [t]) ∨
      es.filterMap Simulation.handed? = [] ∧
        ((∃ t, (a = .complete t ∨ a = .drop t) ∧ t ∈ p.outstanding) ∨
          p'.outstanding = p.outstanding) := by
  have hnotes {es : List Event} (hes : ∀ e ∈ es, e.isNote = true) :
      es.filterMap Simulation.handed? = [] := by
    refine List.filterMap_eq_nil_iff.mpr fun e he => ?_
    have := hes e he
    cases e <;> first | rfl | exact nomatch this
  cases hmove with
  | note hes | turnAway hes | stop hes | advance hes | turn hes => exact .inr ⟨hnotes hes, .inr rfl⟩
  | @hand s t => exact .inl ⟨s, t, rfl, .inl rfl, rfl⟩
  | @devicePanic s t => exact .inl ⟨s, t, rfl, .inr rfl, rfl⟩
  | @complete t _ _ hmem => exact .inr ⟨rfl, .inl ⟨t, .inl rfl, hmem⟩⟩
  | @drop t hmem => exact .inr ⟨rfl, .inl ⟨t, .inr rfl, hmem⟩⟩
  | _ => exact .inr ⟨rfl, .inr rfl⟩

end Pipeline

/-- The device completes a token that was handed over to it: `Action.complete` is possible then. -/
theorem Journal.step_complete {j : Journal} {t : Token} (h : t ∈ j.outstanding) :
    j.step (.complete t) = some ((j.complete t).1,
      [.reported t.writeId t.operation (some t.generation) (j.complete t).2]) :=
  if_pos h

namespace Simulation

/-- A journal and a device to begin with. -/
structure Setup where
  config : Config
  latency : Span := ⟨0⟩
  delays : List (Operation × Span) := []
  holds : List (Operation × WriteId) := []

/-- Takes the actions one after the other; none if one of them is not possible. -/
def run? (s : Simulation) : List Action → Option Step
  | [] => some (s, [])
  | a :: as => (s.step a).bind fun (s', es) => (s'.run? as).map fun (s'', es') => (s'', es ++ es')

/-- Starts a journal on a new device and takes the actions one after the other. -/
def trace? (setup : Setup) (as : List Action) : Option Step :=
  match Journal.start setup.config with
  | .error _ => none
  | .ok (journal, es) =>
    let device := Device.create setup.latency setup.delays setup.holds
    (run? { journal, device } as).map fun (s, es') => (s, es.map .journal ++ es')

/-- The actions `as` lead from the start of a journal on a new device to `s`, with the events
`es`. -/
inductive Run (setup : Setup) : List Action → Simulation → List Event → Prop where
  /-- A journal starts on a device. -/
  | start {journal : Journal} {es : List WriteAhead.Event}
      (hstart : Journal.start setup.config = .ok (journal, es)) :
      Run setup []
        { journal, device := .create setup.latency setup.delays setup.holds } (es.map .journal)
  /-- One more action is taken. -/
  | step {as : List Action} {s s' : Simulation} {es es' : List Event} {a : Action}
      (hrun : Run setup as s es) (hstep : s.step a = some (s', es')) :
      Run setup (as ++ [a]) s' (es ++ es')

variable {setup : Setup} {as as' : List Action} {s s' : Simulation} {es es' : List Event}
  {a : Action}

/-- A run can be continued by any actions that `run?` takes. -/
theorem Run.append (h : Run setup as s es) (hmore : s.run? as' = some (s', es')) :
    Run setup (as ++ as') s' (es ++ es') := by
  induction as' generalizing as s es es' with
  | nil =>
    obtain ⟨rfl, rfl⟩ := Prod.mk.inj (Option.some.inj hmore)
    simpa using h
  | cons a as' ih =>
    obtain ⟨⟨s₁, es₁⟩, hstep, hmore⟩ := Option.bind_eq_some_iff.mp hmore
    obtain ⟨⟨s₂, es₂⟩, htail, heq⟩ := Option.map_eq_some_iff.mp hmore
    obtain ⟨rfl, rfl⟩ := Prod.mk.inj heq
    have hrun := ih (h.step hstep) htail
    rwa [List.append_assoc, List.append_assoc, List.singleton_append] at hrun

/-- A list of actions that are all possible (`trace?`) is a run. -/
theorem Run.of_trace? (h : trace? setup as = some (s, es)) : Run setup as s es := by
  unfold trace? at h
  split at h
  · exact nomatch h
  · rename_i journal es₀ hstart
    obtain ⟨⟨s₁, es₁⟩, hrun, heq⟩ := Option.map_eq_some_iff.mp h
    obtain ⟨rfl, rfl⟩ := Prod.mk.inj heq
    simpa using (Run.start hstart).append hrun

/-! ## What a step comes to -/

/-- The events of the journal. -/
def journalEvents (es : List Event) : List WriteAhead.Event := es.filterMap Event.journal?

theorem journalEvents_append :
    journalEvents (es ++ es') = journalEvents es ++ journalEvents es' := List.filterMap_append

theorem journalEvents_map_journal (es : List WriteAhead.Event) :
    journalEvents (es.map .journal) = es := by
  rw [journalEvents, List.filterMap_map]
  exact List.filterMap_some

theorem journalEvents_map_device (ns : List Device.Notice) :
    journalEvents (ns.map .device) = [] := by
  simp [journalEvents, List.filterMap_map, Event.journal?]

/-- The workers issue to the device, whose clock has no end, and it has what they handed over. -/
structure Wired (s : Simulation) : Prop where
  wired : s.wired = true
  sound : s.device.Sound
  clock : s.device.last? = none
  tokens : s.device.tokens.Perm s.journal.outstanding

/-- What a step comes to: the actions of the journal in it, and its events. -/
inductive Motion (s s' : Simulation) : List Journal.Action → List WriteAhead.Event → Prop where
  /-- Something happens to the journal, and nothing comes to the device or from it. -/
  | journal {a : Journal.Action} {es : List WriteAhead.Event}
      (hstep : s.journal.step a = some (s'.journal, es)) (hdevice : s'.device = s.device)
      (hreports : ∀ t, a ≠ .complete t) : Motion s s' [a] es
  /-- A worker issues a token to the device. -/
  | hand {st : Stage} {t : Token}
      (hstep : s.journal.step (.act (.worker st)) = some (s'.journal, [.handed st t]))
      (hdevice : s'.device = s.device.issue (.worker st) t) :
      Motion s s' [.act (.worker st)] [.handed st t]
  /-- A thread inside the device goes on. -/
  | turn {noted? : Option Token} (hjournal : s'.journal = s.journal)
      (hturn : s.device.Turn s'.device noted? none) : Motion s s' [] []
  /-- A thread inside the device gives a token back. -/
  | give {t : Token} {v : Table.Verdict}
      (hstep : s.journal.step (.complete t) =
        some (s'.journal, [.reported t.writeId t.operation (some t.generation) v]))
      (hturn : s.device.Turn s'.device none (some t)) :
      Motion s s' [.complete t] [.reported t.writeId t.operation (some t.generation) v]

/-- Something happens to the journal, and the device takes what is handed over to it (`accept`). -/
theorem step_journal_eq_some {b : Journal.Action} {step : Step}
    (h : s.step (.journal b) = some step) : s.admits b = true ∧
      ∃ j' es, s.journal.step b = some (j', es) ∧ step = s.ofJournal (j', es) := by
  obtain ⟨hadmits, h⟩ := Option.ite_none_right_eq_some.mp h
  obtain ⟨⟨j', es⟩, hstep, rfl⟩ := Option.map_eq_some_iff.mp h
  exact ⟨hadmits, j', es, hstep, rfl⟩

/-- What the device has was handed over: in a simulation that is `Wired` the journal has it
`outstanding`. -/
theorem Wired.mem_tokens (h : s.Wired) {t : Token} :
    t ∈ s.device.tokens ↔ t ∈ s.journal.outstanding := h.tokens.mem_iff

/-- A turn that gives no token back keeps the device `Wired`. -/
private theorem Wired.turn {noted? : Option Token} (h : s.Wired) (hwired : s'.wired = s.wired)
    (hjournal : s'.journal = s.journal) (hsound : s'.device.Sound)
    (hclock : s'.device.last? = s.device.last?)
    (hturn : s.device.Turn s'.device noted? none) : s'.Wired := by
  refine ⟨hwired.trans h.wired, hsound, hclock.trans h.clock, ?_⟩
  rw [hjournal]
  cases hturn with
  | keeps _ htokens | notes _ htokens => exact htokens.trans h.tokens

variable {c : Config} {history : List WriteAhead.Event}

/-- What happens to the journal is a `Motion` with that action, and the device is given what is
handed over. -/
private theorem motion_journal {history : List WriteAhead.Event} {acts : List Journal.Action}
    {b : Journal.Action} (hrun : Journal.Run c acts s.journal history) (h : s.Wired)
    (hstep : s.step (.journal b) = some (s', es)) :
    s'.Wired ∧ Motion s s' [b] (journalEvents es) := by
  obtain ⟨hadmits, j', es₀, hj, heq⟩ := step_journal_eq_some hstep
  obtain ⟨rfl, rfl⟩ := Prod.mk.inj heq
  rw [journalEvents_map_journal]
  -- What the device has comes back through it alone.
  have haway {t : Token} (hb : b = .complete t ∨ b = .drop t) : t ∉ s.journal.outstanding := by
    rw [← h.mem_tokens]
    rcases hb with rfl | rfl <;> simpa [admits] using hadmits
  rcases (hrun.move hj).handing with ⟨st, t, rfl, hb, houtstanding⟩ | ⟨hnone, hstays⟩
  · rcases hb with rfl | rfl
    · have hdevice : (if s.wired then accept s.device [.handed st t] else s.device) =
          s.device.issue (.worker st) t := by rw [h.wired]; rfl
      have hcall : s.device.call? (.worker st) = none := by simpa [admits] using hadmits
      have htokens : (s.device.issue (.worker st) t).tokens.Perm (s.journal.outstanding ++ [t]) :=
        (s.device.tokens_issue _ t).trans
          ((h.tokens.cons t).trans (List.perm_append_singleton ..).symm)
      refine ⟨⟨h.wired, ?_, ?_, ?_⟩, .hand hj hdevice⟩
      · rw [hdevice]
        exact h.sound.issue hcall nofun t
      · rw [hdevice]
        exact h.clock
      · rw [hdevice, show j'.outstanding = s.journal.outstanding ++ [t] from houtstanding]
        exact htokens
    · simp [admits, h.wired] at hadmits
  · have hdevice : (if s.wired then accept s.device es₀ else s.device) = s.device := by
      rw [h.wired, accept, hnone]
      rfl
    rcases hstays with ⟨t, hb, hmem⟩ | houtstanding
    · exact absurd hmem (haway hb)
    · refine ⟨⟨h.wired, ?_, ?_, ?_⟩, .journal hj hdevice ?_⟩
      · rw [hdevice]
        exact h.sound
      · rw [hdevice]
        exact h.clock
      · rw [hdevice, show j'.outstanding = s.journal.outstanding from houtstanding]
        exact h.tokens
      · rintro t rfl
        obtain ⟨hmem, -⟩ := Option.ite_none_right_eq_some.mp hj
        exact haway (.inl rfl) hmem

/-- What a thread of the device does is a `Motion` with the completions that it makes. -/
private theorem motion_device {th : Device.Thread} (h : s.Wired)
    (hstep : s.step (.device th) = some (s', es)) :
    s'.Wired ∧ ∃ acts, Motion s s' acts (journalEvents es) ∧ ∀ b ∈ acts, ∃ t, b = .complete t := by
  obtain ⟨⟨d', notices, given?⟩, hd, heq⟩ := Option.map_eq_some_iff.mp hstep
  have hkept := Device.losing?_of_last? h.clock s.now th
  have hclock : d'.last? = none := (Device.last?_of_step hd).trans h.clock
  obtain ⟨hsound, hturn⟩ := h.sound.turn_of_step hkept hd
  rw [hkept] at heq
  -- Only a step that gives a token reaches the journal.
  cases given? with
  | none =>
    obtain ⟨rfl, rfl⟩ := Prod.mk.inj heq
    rw [journalEvents_map_device]
    exact ⟨h.turn rfl rfl hsound (Device.last?_of_step hd) hturn, [], .turn rfl hturn, nofun⟩
  | some t =>
    obtain ⟨rfl, rfl⟩ := Prod.mk.inj heq
    rw [journalEvents_append, journalEvents_map_device, List.nil_append]
    cases hturn' : (s.device.call? th).bind Device.Call.completing? with
    | some u =>
      rw [hturn'] at hturn
      exact nomatch hturn
    | none =>
      rw [hturn'] at hturn
      have htokens : s.device.tokens.Perm (t :: d'.tokens) := by
        cases hturn
        assumption
      have hmem : t ∈ s.journal.outstanding :=
        h.mem_tokens.mp (htokens.mem_iff.mpr List.mem_cons_self)
      have hleft : d'.tokens.Perm (s.journal.outstanding.erase t) :=
        (List.cons_perm_iff_perm_erase.mp (htokens.symm.trans h.tokens)).2
      exact ⟨⟨h.wired, hsound, hclock, hleft⟩, [.complete t],
        .give (Journal.step_complete hmem) hturn,
        by simp⟩

/-- What a `step` comes to is a `Motion`. All that happens to the journal by itself are
completions. -/
theorem motion_of_step {acts : List Journal.Action}
    (hrun : Journal.Run c acts s.journal history) (h : s.Wired) (hstep : s.step a = some (s', es)) :
    s'.Wired ∧ ∃ acts', Motion s s' acts' (journalEvents es) ∧
      ∀ b ∈ acts', a = .journal b ∨ ∃ t, b = .complete t := by
  have hturn {d' : Device} (hsound : d'.Sound) (hclock : d'.last? = s.device.last?)
      (hnotes : d'.notes = s.device.notes)
      (htokens : d'.tokens.Perm s.device.tokens) (hnoted : d'.noted = s.device.noted) :
      Wired { s with device := d' } ∧
        ∃ acts', Motion s { s with device := d' } acts' (journalEvents []) ∧
          ∀ b ∈ acts', a = .journal b ∨ ∃ t, b = .complete t := by
    have hkeeps : s.device.Turn d' none none := .keeps hnotes htokens (hnoted ▸ .refl _)
    exact ⟨h.turn rfl rfl hsound hclock hkeeps, [], .turn rfl hkeeps, nofun⟩
  cases a with
  | journal b =>
    obtain ⟨hwired, hmotion⟩ := motion_journal hrun h hstep
    exact ⟨hwired, [b], hmotion, fun b' hmem => .inl (by rw [List.mem_singleton.mp hmem])⟩
  | device th =>
    obtain ⟨hwired, acts', hmotion, hcompletions⟩ := motion_device h hstep
    exact ⟨hwired, acts', hmotion, fun b hmem => .inr (hcompletions b hmem)⟩
  | fire =>
    obtain ⟨d', hfire, heq⟩ := Option.map_eq_some_iff.mp hstep
    obtain ⟨rfl, rfl⟩ := Prod.mk.inj heq
    have hclock : d'.last? = s.device.last? := by
      obtain ⟨timer, t, others, -, -, -, rfl⟩ := Device.fire_eq_some hfire
      rfl
    exact hturn (h.sound.fire hfire) hclock (Device.notes_fire hfire) (Device.tokens_fire hfire)
      (Device.noted_fire hfire)
  | hold op id =>
    obtain ⟨rfl, rfl⟩ := Prod.mk.inj (Option.some.inj hstep)
    obtain ⟨holds, heq⟩ := s.device.hold_eq op id
    rw [heq]
    exact hturn (h.sound.of_calls_eq rfl rfl) rfl rfl (.refl _) rfl
  | release n =>
    obtain ⟨hcall, heq⟩ := Option.ite_none_right_eq_some.mp hstep
    obtain ⟨rfl, rfl⟩ := Prod.mk.inj (Option.some.inj heq)
    exact hturn (h.sound.release (Option.isNone_iff_eq_none.mp hcall) nofun) rfl rfl
      (s.device.tokens_release _ ▸ .refl _) (s.device.noted_release _)
  | issue n t =>
    -- Whatever was handed over is with the device already.
    obtain ⟨⟨-, hmem, hout⟩, -⟩ := Option.ite_none_right_eq_some.mp hstep
    exact absurd (h.mem_tokens.mpr hmem) hout
  | pass instant =>
    obtain ⟨-, heq⟩ := Option.ite_none_right_eq_some.mp hstep
    obtain ⟨rfl, rfl⟩ := Prod.mk.inj (Option.some.inj heq)
    have hkeeps : s.device.Turn s.device none none := .keeps rfl (.refl _) (.refl _)
    exact ⟨⟨h.wired, h.sound, h.clock, h.tokens⟩, [], .turn rfl hkeeps, nofun⟩

/-- The journal of a `Motion` goes on by the actions in it. -/
theorem Motion.run {acts acts' : List Journal.Action} {es' : List WriteAhead.Event}
    (h : Motion s s' acts' es') (hrun : Journal.Run c acts s.journal history) :
    Journal.Run c (acts ++ acts') s'.journal (history ++ es') := by
  cases h with
  | journal hstep | hand hstep | give hstep => exact hrun.step hstep
  | turn hjournal =>
    rw [hjournal, List.append_nil, List.append_nil]
    exact hrun

/-- What happens to the journal is a `Journal.Run`, and the device has what was handed over. Besides
the actions on the journal there are completions in it. -/
theorem Run.actions (h : Run setup as s es) :
    s.Wired ∧ ∃ acts, Journal.Run setup.config acts s.journal (journalEvents es) ∧
      ∀ b ∈ acts, .journal b ∈ as ∨ ∃ t, b = .complete t := by
  induction h with
  | start hstart =>
    rw [journalEvents_map_journal]
    refine ⟨⟨rfl, Device.sound_create .., rfl, ?_⟩, [], .start hstart, nofun⟩
    obtain ⟨-, -, rfl, -⟩ := Journal.start_eq_ok hstart
    rw [Device.tokens_create]
    exact .refl _
  | @step as s s' es es' a hrun hstep ih =>
    obtain ⟨hwired, acts, hjournal, hacts⟩ := ih
    obtain ⟨hwired', acts', hmotion, hown⟩ := motion_of_step hjournal hwired hstep
    rw [journalEvents_append]
    refine ⟨hwired', acts ++ acts', hmotion.run hjournal, fun b hmem => ?_⟩
    rcases List.mem_append.mp hmem with hmem | hmem
    · exact (hacts b hmem).imp_left (List.mem_append_left _)
    · refine (hown b hmem).imp_left fun ha => ?_
      rw [ha]
      exact List.mem_append_right _ List.mem_cons_self

/-- If nobody reports by write id, the run of the journal has no such `report`. -/
theorem Run.journal (h : Run setup as s es) (has : ∀ id op, .journal (.report id op) ∉ as) :
    s.Wired ∧ ∃ acts, Journal.Run setup.config acts s.journal (journalEvents es) ∧
      ∀ id op, .report id op ∉ acts := by
  obtain ⟨hwired, acts, hjournal, hacts⟩ := h.actions
  refine ⟨hwired, acts, hjournal, fun id op hmem => ?_⟩
  rcases hacts _ hmem with hmem | ⟨t, heq⟩
  · exact has id op hmem
  · cases heq

end Simulation

end WriteAhead
