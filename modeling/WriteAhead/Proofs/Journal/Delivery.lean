import WriteAhead.Proofs.Journal.Projection

/-!
# The order in which the client is told

Between the first queue and the client a write is in one of the three queues or with one of the
three workers, and none of them changes the order. `underway` puts these places together, the one
next to the client first; it ends at a worker that is over, since nothing gets past it. What the
client was told and what is underway is the beginning of what was accepted, and all of it as long as
every worker goes on (`Delivers`).

## Key results

- `Pipeline.Run.delivers`: the places of a pipeline keep the order of acceptance
- `Journal.Run.notified_prefix`: the client is told of writes in the order of their acceptance
-/

namespace WriteAhead

/-- The write that a worker has taken and neither passed on nor told the client of. -/
def Phase.carried? : Phase → Option WriteId
  | .marking _ => none
  | phase => phase.held?

namespace Pipeline

variable {p p' : Pipeline} {es es' : List Event} {a : Journal.Action}

/-! ## Writes underway -/

/-- What still gets past a stage: its own writes and those that reach its queue later. -/
def through (p : Pipeline) (s : Stage) (later : List WriteId) : List WriteId :=
  if (p.workers.get s).isOver then []
  else (p.workers.get s).carried?.toList ++ p.lines.get s ++ later

/-- The writes that were accepted and still get to the client, in order. -/
def underway (p : Pipeline) : List WriteId :=
  p.through .checkpoint (p.through .commit (p.through .metadata []))

/-- Whether every worker goes on. -/
def Alive (p : Pipeline) : Prop := ∀ s, (p.workers.get s).isOver = false

/-- Workers that are all `Alive` after one has changed its phase were so before, if that one was. -/
theorem Alive.of_setPhase {s : Stage} {phase : Phase}
    (h : ∀ t, ((p.workers.set s phase).get t).isOver = false)
    (hold : (p.workers.get s).isOver = false) : p.Alive := by
  intro t
  have ht := h t
  rw [PerStage.get_set] at ht
  split at ht
  · rename_i hts
    rw [hts]
    exact hold
  · exact ht

/-- Less is `underway` past a worker that is over: what is behind it never gets to the client. -/
theorem underway_setPhase_over (p : Pipeline) (s : Stage) {phase : Phase}
    (h : phase.isOver = true) : (p.setPhase s phase).underway <+: p.underway := by
  -- The stages behind the worker keep their own writes and lose those that came later.
  simp only [underway, through, setPhase, PerStage.get_set]
  cases s
  · simp only [if_true, h, reduceCtorEq, if_false]
    split
    · exact List.prefix_rfl
    · rw [List.prefix_append_right_inj]
      split
      · exact List.prefix_rfl
      · rw [List.prefix_append_right_inj]
        exact List.nil_prefix
  · simp only [if_true, h, reduceCtorEq, if_false]
    split
    · exact List.prefix_rfl
    · rw [List.prefix_append_right_inj]
      exact List.nil_prefix
  · simp only [if_true, h]
    exact List.nil_prefix

/-- A worker that carries the same write as before (`carried?`) leaves the same writes
`underway`. -/
theorem underway_setPhase_of_carried {s : Stage} {phase : Phase}
    (hcarried : phase.carried? = (p.workers.get s).carried?)
    (hover : phase.isOver = (p.workers.get s).isOver) :
    (p.setPhase s phase).underway = p.underway := by
  have hthrough : ∀ t later, (p.setPhase s phase).through t later = p.through t later := by
    intro t later
    simp only [through, setPhase, PerStage.get_set]
    split
    · rename_i ht
      rw [ht, hcarried, hover]
    · rfl
  simp only [underway, hthrough]

/-! ## Delivery -/

/-- What the client was told and what is underway is the beginning of what was accepted, and all of
it if every worker goes on. -/
structure Delivers (p : Pipeline) (es : List Event) : Prop where
  isPrefix : es.filterMap Event.notified? ++ p.underway <+: es.filterMap Event.accepted?
  eq_of_alive : p.Alive → es.filterMap Event.notified? ++ p.underway = es.filterMap Event.accepted?

/-- A move that tells the client nothing and accepts nothing keeps the order if it loses only the
end of what is `underway`, and nothing while every worker goes on. -/
private theorem Delivers.keep (h : p.Delivers es) (hnotified : es'.filterMap Event.notified? = [])
    (haccepted : es'.filterMap Event.accepted? = []) (hpre : p'.underway <+: p.underway)
    (halive : p'.Alive → p.Alive ∧ p'.underway = p.underway) : p'.Delivers (es ++ es') := by
  constructor
  · simp only [List.filterMap_append, hnotified, haccepted, List.append_nil]
    exact ((List.prefix_append_right_inj _).mpr hpre).trans h.isPrefix
  · intro halive'
    obtain ⟨hold, hsame⟩ := halive halive'
    simp only [List.filterMap_append, hnotified, haccepted, List.append_nil, hsame]
    exact h.eq_of_alive hold

/-- A move that leaves everything `underway` where it is keeps the order. -/
private theorem Delivers.same (h : p.Delivers es) (hnotified : es'.filterMap Event.notified? = [])
    (haccepted : es'.filterMap Event.accepted? = []) (hsame : p'.underway = p.underway)
    (halive : p'.Alive → p.Alive) : p'.Delivers (es ++ es') :=
  h.keep hnotified haccepted (hsame ▸ List.prefix_rfl) fun ha => ⟨halive ha, hsame⟩

theorem notified?_of_isNote {e : Event} (h : e.isNote = true) : e.notified? = none := by
  cases e <;> simp_all [Event.isNote, Event.notified?]

theorem accepted?_of_isNote {e : Event} (h : e.isNote = true) : e.accepted? = none := by
  cases e <;> simp_all [Event.isNote, Event.accepted?]

/-- A worker that comes to its end (`isOver`) keeps the order: what is `underway` loses its own
write and those behind it. -/
private theorem Delivers.over {s : Stage} {phase : Phase} (h : p.Delivers es)
    (hnotified : es'.filterMap Event.notified? = [])
    (haccepted : es'.filterMap Event.accepted? = [])
    (hover : phase.isOver = true) : (p.setPhase s phase).Delivers (es ++ es') := by
  refine h.keep hnotified haccepted (p.underway_setPhase_over s hover) fun halive => ?_
  have hs := halive s
  rw [setPhase, PerStage.get_set, if_pos rfl, hover] at hs
  cases hs

/-- The last worker that tells the client of the write that it carries (`carried?`) keeps the order,
since that write is the first underway. -/
private theorem Delivers.notify {id : WriteId} {phase : Phase} (h : p.Delivers es)
    (hphase : p.workers.get .checkpoint = .notifying id) (hcarried : phase.carried? = none) :
    (p.setPhase .checkpoint phase).Delivers (es ++ [.notified id]) := by
  -- The write of which the client is told is the first of all underway.
  have hcons : p.underway = id :: (p.setPhase .checkpoint .popping).underway := by
    simp only [underway, through, setPhase, PerStage.get_set, hphase]
    simp [Phase.isOver, Phase.carried?, Phase.held?]
  have hpre : (p.setPhase .checkpoint phase).underway <+:
      (p.setPhase .checkpoint .popping).underway := by
    simp only [underway, through, setPhase, PerStage.get_set, if_true, hcarried]
    split
    · exact List.nil_prefix
    · exact List.prefix_rfl
  have hnotified : (es ++ [Event.notified id]).filterMap Event.notified? =
      es.filterMap Event.notified? ++ [id] := by simp [Event.notified?]
  have haccepted : (es ++ [Event.notified id]).filterMap Event.accepted? =
      es.filterMap Event.accepted? := by simp [Event.accepted?]
  constructor
  · have hold := h.isPrefix
    rw [hcons] at hold
    rw [hnotified, haccepted, List.append_assoc, List.singleton_append]
    refine List.IsPrefix.trans ?_ hold
    rw [List.prefix_append_right_inj, List.prefix_cons_inj]
    exact hpre
  · intro halive
    have hover : phase.isOver = false := by
      have := halive .checkpoint
      rwa [setPhase, PerStage.get_set, if_pos rfl] at this
    have hsame : (p.setPhase .checkpoint phase).underway =
        (p.setPhase .checkpoint .popping).underway := by
      simp only [underway, through, setPhase, PerStage.get_set, if_true, hcarried, hover]
      rfl
    have hold := h.eq_of_alive (.of_setPhase halive (by rw [hphase]; rfl))
    rw [hcons] at hold
    rw [hnotified, haccepted, List.append_assoc, List.singleton_append, hsame]
    exact hold

/-- A write that is accepted comes last of all `underway`. -/
private theorem underway_accept {id : WriteId} {admitted : List WriteId} (halive : p.Alive) :
    underway { p with
      admitted, lines := p.lines.set .metadata (p.lines.get .metadata ++ [id]) } =
        p.underway ++ [id] := by
  have h₁ := halive .metadata
  have h₂ := halive .commit
  have h₃ := halive .checkpoint
  simp [underway, through, h₁, h₂, h₃]

/-- A write that is accepted never gets past a worker that is over, so what is `underway` is the
same. -/
private theorem underway_accept_of_over {id : WriteId} {admitted : List WriteId} {s : Stage}
    (hover : (p.workers.get s).isOver = true) :
    underway { p with
      admitted, lines := p.lines.set .metadata (p.lines.get .metadata ++ [id]) } = p.underway := by
  cases s <;> simp [underway, through, hover]

/-- A write that is accepted keeps the order: it comes last `underway`, or is lost behind a worker
that is over. -/
private theorem Delivers.accept {id : WriteId} {admitted : List WriteId} (h : p.Delivers es) :
    Delivers { p with
      admitted, lines := p.lines.set .metadata (p.lines.get .metadata ++ [id]) }
      (es ++ [.accepted id]) := by
  have hnotified : (es ++ [Event.accepted id]).filterMap Event.notified? =
      es.filterMap Event.notified? := by simp [Event.notified?]
  have haccepted : (es ++ [Event.accepted id]).filterMap Event.accepted? =
      es.filterMap Event.accepted? ++ [id] := by simp [Event.accepted?]
  by_cases halive : p.Alive
  · refine ⟨⟨[], ?_⟩, fun _ => ?_⟩ <;>
      rw [underway_accept halive, hnotified, haccepted, ← h.eq_of_alive halive]
    · rw [List.append_nil, List.append_assoc]
    · rw [List.append_assoc]
  · -- Some worker is over, and the new write never gets past it.
    refine ⟨?_, fun halive' => absurd halive' halive⟩
    obtain ⟨s, hs⟩ := not_forall.mp halive
    rw [underway_accept_of_over (by simpa using hs), hnotified, haccepted]
    exact h.isPrefix.trans (List.prefix_append _ _)

/-- A `Move` keeps the order of acceptance. -/
theorem Move.delivers (hmove : p.Move a es' p') (hsuits : ∀ s, Suits s (p.workers.get s))
    (h : p.Delivers es) : p'.Delivers (es ++ es') := by
  have hnotified (hes : ∀ e ∈ es', e.isNote = true) : es'.filterMap Event.notified? = [] :=
    List.filterMap_eq_nil_iff.mpr fun e he => notified?_of_isNote (hes e he)
  have haccepted (hes : ∀ e ∈ es', e.isNote = true) : es'.filterMap Event.accepted? = [] :=
    List.filterMap_eq_nil_iff.mpr fun e he => accepted?_of_isNote (hes e he)
  cases hmove with
  | note hes => exact h.same (hnotified hes) (haccepted hes) rfl id
  | acquire => exact h.same rfl rfl rfl id
  | accept => exact h.accept
  | turnAway hes => exact h.same (hnotified hes) (haccepted hes) rfl id
  -- The first of the line goes into the hands of its worker, so what is underway stays the same
  -- list.
  | @take s id rest hphase hline =>
    refine h.same rfl rfl ?_ fun ha => .of_setPhase ha (by rw [hphase]; rfl)
    cases s <;> simp [underway, through, setPhase, hphase, hline, Phase.isOver, Phase.carried?,
      Phase.held?]
  -- A worker at its end lets nothing pass, so its write and those behind it are not underway any
  -- more. What is left is a prefix.
  | stop hes => exact h.over (hnotified hes) (haccepted hes) rfl
  | @record s id op left t g hphase hissue =>
    refine h.same rfl rfl ?_ fun ha => .of_setPhase ha (by rw [hphase]; rfl)
    exact underway_setPhase_of_carried (p := { p with table := t }) (by rw [hphase]; rfl)
      (by rw [hphase]; rfl)
  | @hand s t left hphase =>
    refine h.same rfl rfl ?_ fun ha => .of_setPhase ha (by rw [hphase]; rfl)
    exact underway_setPhase_of_carried (p := { p with outstanding := _ }) (by rw [hphase]; rfl)
      (by rw [hphase]; rfl)
  | @advance s id slot es hes hphase hslot hjoin =>
    refine h.same (hnotified hes) (haccepted hes) ?_ fun ha =>
      .of_setPhase ha (by rw [hphase]; rfl)
    refine underway_setPhase_of_carried ?_ ?_
    · rw [hphase]; split <;> rfl
    · rw [hphase]; split <;> rfl
  | @pass s t id hnext hphase =>
    refine h.same rfl rfl ?_ fun ha => .of_setPhase ha (by rw [hphase]; rfl)
    cases s <;> cases hnext <;>
      simp [underway, through, setPhase, hphase, Phase.isOver, Phase.carried?, Phase.held?]
  -- Only the last stage notifies, and its write is the first of those underway.
  | @notify s id hphase =>
    have hlast := hsuits s
    rw [hphase] at hlast
    obtain rfl := Stage.eq_checkpoint_of_last hlast
    exact h.notify hphase rfl
  | @mark s id t released hphase hmark =>
    refine h.same rfl rfl ?_ fun ha => .of_setPhase ha (by rw [hphase]; rfl)
    exact underway_setPhase_of_carried (p := { p with table := t }) (by rw [hphase]; rfl)
      (by rw [hphase]; rfl)
  | fault => exact h.over rfl rfl rfl
  | clientPanic hphase => exact h.notify hphase rfl
  | @devicePanic s t left hphase =>
    exact Delivers.over (p := { p with outstanding := p.outstanding ++ [t] })
      ⟨h.isPrefix, h.eq_of_alive⟩ rfl rfl rfl
  | complete => exact h.same rfl rfl rfl id
  | drop => exact h.same rfl rfl rfl id
  | report => exact h.same rfl rfl rfl id
  | close => exact h.same rfl rfl rfl id
  | abort => exact h.same rfl rfl rfl id
  | turn hes => exact h.same (hnotified hes) (haccepted hes) rfl id

/-- The places of a pipeline keep the order of acceptance (`Delivers`) along every run. -/
theorem Run.delivers {c : Config} {as : List Journal.Action} (h : Run c as p es) :
    p.Delivers es := by
  induction h with
  | @start es hes =>
    have hnotified : es.filterMap Event.notified? = [] :=
      List.filterMap_eq_nil_iff.mpr fun e he => notified?_of_isNote (hes e he)
    have haccepted : es.filterMap Event.accepted? = [] :=
      List.filterMap_eq_nil_iff.mpr fun e he => accepted?_of_isNote (hes e he)
    have hunderway : (create c).underway = [] := rfl
    refine ⟨?_, fun _ => ?_⟩
    · rw [hnotified, haccepted, hunderway]
      exact List.prefix_rfl
    · rw [hnotified, haccepted, hunderway]
      rfl
  | move hrun hmove ih => exact hmove.delivers hrun.suited ih

end Pipeline

namespace Journal

/-- At every moment of every run, the writes of which the client was told (`notified?`) are the
first of those that the first queue accepted (`accepted?`), in the same order. -/
theorem Run.notified_prefix {c : Config} {as : List Action} {j : Journal} {es : List Event}
    (h : Run c as j es) :
    es.filterMap Event.notified? <+: es.filterMap Event.accepted? :=
  (List.prefix_append _ _).trans h.pipeline.delivers.isPrefix

/-- Of two accepted writes the first has gone through all stages, and the client knows of it. -/
theorem notified_prefix_of_two :
    ∃ j es, Run { bufferSize := 2, maxRequests := 2 }
        (submission 0 0 ++ submission 1 1 ++ Stage.all.flatMap (passage 0 1)) j es ∧
      es.filterMap Event.notified? = [0] ∧ es.filterMap Event.accepted? = [0, 1] ∧
      es.filterMap Event.notified? <+: es.filterMap Event.accepted? := by
  have hrun : (trace? { bufferSize := 2, maxRequests := 2 }
      (submission 0 0 ++ submission 1 1 ++ Stage.all.flatMap (passage 0 1))).map
        (fun r => (r.2.filterMap Event.notified?, r.2.filterMap Event.accepted?)) =
      some ([0], [0, 1]) := by decide +kernel
  obtain ⟨⟨j, es⟩, htrace, hes⟩ := Option.map_eq_some_iff.mp hrun
  obtain ⟨hnotified, haccepted⟩ := Prod.mk.inj hes
  have h := Run.of_trace? htrace
  exact ⟨j, es, h, hnotified, haccepted, Run.notified_prefix h⟩

end Journal

end WriteAhead
