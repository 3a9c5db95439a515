import WriteAhead.Proofs.Journal.History
import WriteAhead.Proofs.Journal.Pipeline

/-!
# Where the writes of a pipeline are

A write that has its slot is with a submitter, in a queue or with a worker. Its `Place` says which
of its operations are not on record yet and how many joins it has passed. `Entry` says what a move
does to the slots, the places and the tokens. It has far fewer cases than `Move`: it matters that a
write goes on, not from where to where.

## Key results

- `places_setPhase`, `places_setLine`: what a worker and a queue contribute to the places
- `Move.entry`: every move is an entry
-/

namespace WriteAhead

/-! ## Operations of later stages -/

namespace Stage

/-- The operations that a write in the queue of the stage has still to go through. -/
def onward (s : Stage) : List Operation := Operation.all.filter (s.index ≤ ·.stage.index)

/-- The operations of the later stages. -/
def after (s : Stage) : List Operation := Operation.all.filter (s.index < ·.stage.index)

theorem operations_append_after (s : Stage) : s.operations ++ s.after = s.onward := by
  cases s <;> rfl

theorem onward_of_next {s t : Stage} (h : s.next = some t) : t.onward = s.after := by
  cases s <;> cases h <;> rfl

theorem after_of_last {s : Stage} (h : s.next = none) : s.after = [] ∧ s.index = 2 := by
  rw [eq_checkpoint_of_last h]
  exact ⟨by decide, rfl⟩

theorem index_le (s : Stage) : s.index ≤ 2 := by cases s <;> decide

theorem index_inj {s t : Stage} (h : s.index = t.index) : s = t := by
  cases s <;> cases t <;> simp_all [index]

end Stage

/-! ## Places -/

/-- Where a write that has its slot is. -/
structure Place where
  id : WriteId
  /-- The operations that are not on record yet. -/
  left : List Operation
  /-- How many joins the write has passed. -/
  passed : Nat
  /-- The token that is on its way to the device. -/
  token? : Option Token

namespace Place

/-- With a submitter. -/
def admitted (id : WriteId) : Place := ⟨id, Operation.all, 0, none⟩

/-- In the queue of a stage. -/
def queued (s : Stage) (id : WriteId) : Place := ⟨id, s.onward, s.index, none⟩

end Place

/-- The place of the write that a worker has taken and not passed on. -/
def Phase.place? (s : Stage) : Phase → Option Place
  | .issuing id left => some ⟨id, left ++ s.after, s.index, none⟩
  | .handing t left => some ⟨t.writeId, left ++ s.after, s.index, some t⟩
  | .awaitingJoin id => some ⟨id, s.after, s.index, none⟩
  | .pushing id | .awaitingRoom id | .notifying id | .marking id =>
    some ⟨id, s.after, s.index + 1, none⟩
  | .popping | .awaitingItem | .stopped | .crashed _ => none

theorem Phase.place?_of_held? {s : Stage} {phase : Phase} {id : WriteId}
    (h : phase.held? = some id) : ∃ place, phase.place? s = some place ∧ place.id = id := by
  cases phase <;> simp_all [Phase.held?, Phase.place?]

/-- A worker with a token on its way to the device is in the phase `handing`. -/
theorem Phase.eq_handing {s : Stage} {phase : Phase} {place : Place} {t : Token}
    (h : phase.place? s = some place) (htoken : place.token? = some t) :
    ∃ left, phase = .handing t left := by
  cases phase with
  | handing t' left =>
    obtain rfl := Option.some.inj h
    obtain rfl : t' = t := Option.some.inj htoken
    exact ⟨left, rfl⟩
  | popping | awaitingItem | stopped | crashed => exact nomatch h
  | issuing | awaitingJoin | pushing | awaitingRoom | notifying | marking =>
    obtain rfl := Option.some.inj h
    exact nomatch htoken

/-- Whether an action is a mishap: the client or the device panics, or a token is dropped. -/
def Journal.Action.isMishap : Journal.Action → Bool
  | .clientPanic | .devicePanic _ | .drop _ => true
  | _ => false

/-- Whether the client or the device panics. -/
def Journal.Action.isPanic : Journal.Action → Bool
  | .clientPanic | .devicePanic _ => true
  | _ => false

/-- A mishap without a panic is a `drop` of a token. -/
theorem Journal.Action.drop_of_isMishap {a : Journal.Action} (h : a.isMishap = true)
    (hpanic : a.isPanic = false) : ∃ t, a = .drop t := by
  cases a with
  | drop t => exact ⟨t, rfl⟩
  | clientPanic | devicePanic => exact nomatch hpanic
  | _ => exact nomatch h

theorem Journal.Action.isPanic_of_isMishap {a : Journal.Action} (h : a.isMishap = false) :
    a.isPanic = false := by
  cases a <;> first | rfl | exact nomatch h

namespace Pipeline

variable {p p' : Pipeline} {es : List Event} {a : Journal.Action} {s t : Stage}

/-- The places of all writes. -/
def places (p : Pipeline) : List Place :=
  p.admitted.map .admitted ++ Stage.all.flatMap (fun s => (p.lines.get s).map (.queued s)) ++
    Stage.all.flatMap fun s => ((p.workers.get s).place? s).toList

/-- The tokens that were made and neither given back nor dropped. -/
def tokens (p : Pipeline) : List Token := p.outstanding ++ p.places.filterMap Place.token?

/-- A write with a place in `places` is with a submitter, in a queue or with a worker. -/
theorem places_cases {place : Place} (h : place ∈ p.places) :
    (∃ id ∈ p.admitted, place = .admitted id) ∨
      (∃ s, ∃ id ∈ p.lines.get s, place = .queued s id) ∨
        ∃ s, (p.workers.get s).place? s = some place := by
  unfold places at h
  rcases List.mem_append.mp h with h | h
  · rcases List.mem_append.mp h with h | h
    · obtain ⟨id, hmem, rfl⟩ := List.mem_map.mp h
      exact .inl ⟨id, hmem, rfl⟩
    · obtain ⟨s, -, hline⟩ := List.mem_flatMap.mp h
      obtain ⟨id, hmem, rfl⟩ := List.mem_map.mp hline
      exact .inr (.inl ⟨s, id, hmem, rfl⟩)
  · obtain ⟨s, -, hmem⟩ := List.mem_flatMap.mp h
    exact .inr (.inr ⟨s, Option.mem_toList.mp hmem⟩)

/-- A token of `tokens` is with the device or on its way there. -/
theorem tokens_cases {t : Token} (h : t ∈ p.tokens) :
    t ∈ p.outstanding ∨ ∃ s left, p.workers.get s = .handing t left := by
  rcases List.mem_append.mp h with h | h
  · exact .inl h
  · obtain ⟨place, hmem, htoken⟩ := List.mem_filterMap.mp h
    rcases places_cases hmem with ⟨id, -, rfl⟩ | ⟨s, id, -, rfl⟩ | ⟨s, hplace⟩
    · exact nomatch htoken
    · exact nomatch htoken
    · exact .inr ⟨s, Phase.eq_handing hplace htoken⟩

/-- Replacing the value of one stage (`PerStage.set`) trades what it contributes, and nothing else,
whatever order the stages are listed in. -/
private theorem flatMap_set_perm {α β : Type} (f : Stage → α → List β) (x : PerStage α) (s : Stage)
    (a : α) : (f s (x.get s) ++ Stage.all.flatMap fun t => f t ((x.set s a).get t)).Perm
      (f s a ++ Stage.all.flatMap fun t => f t (x.get t)) := by
  have hall (y : PerStage α) : (Stage.all.flatMap fun t => f t (y.get t)) =
      f .metadata y.metadata ++ (f .commit y.commit ++ f .checkpoint y.checkpoint) := by
    simp [Stage.all, PerStage.get]
  rw [hall, hall]
  cases s with
  | metadata => exact List.perm_append_comm_assoc ..
  | commit =>
    refine (List.perm_append_comm_assoc ..).trans ?_
    exact ((List.perm_append_comm_assoc ..).append_left _).trans (List.perm_append_comm_assoc ..)
  | checkpoint =>
    simp only [PerStage.set, PerStage.get]
    rw [← List.append_assoc (f .metadata x.metadata), ← List.append_assoc (f .metadata x.metadata)]
    refine (List.perm_append_comm.append_left _).trans ?_
    exact (List.perm_append_comm_assoc ..).trans (List.perm_append_comm.append_left _)

/-- A worker contributes the place of the write that it holds, so `setPhase` trades one for the
other. -/
theorem places_setPhase (p : Pipeline) (s : Stage) (phase : Phase) :
    (((p.workers.get s).place? s).toList ++ (p.setPhase s phase).places).Perm
      ((phase.place? s).toList ++ p.places) := by
  have hset := flatMap_set_perm (fun t phase => (Phase.place? t phase).toList) p.workers s phase
  unfold places setPhase
  refine (List.perm_append_comm_assoc ..).trans ?_
  exact (hset.append_left _).trans (List.perm_append_comm_assoc ..)

/-- A queue contributes the places of the writes in it (`Place.queued`), so another line trades them
for its own. -/
theorem places_setLine (p : Pipeline) (s : Stage) (line : List WriteId) :
    ((p.lines.get s).map (Place.queued s) ++ { p with lines := p.lines.set s line }.places).Perm
      (line.map (Place.queued s) ++ p.places) := by
  have hset := flatMap_set_perm (fun t line => List.map (Place.queued t) line) p.lines s line
  have hset := hset.append_right
    (Stage.all.flatMap fun s => ((p.workers.get s).place? s).toList)
  rw [List.append_assoc, List.append_assoc] at hset
  unfold places
  rw [List.append_assoc, List.append_assoc]
  refine (List.perm_append_comm_assoc ..).trans ?_
  exact (hset.append_left _).trans (List.perm_append_comm_assoc ..)

/-! ## Entries -/

open Journal (Action)

/-- Whether writes or tokens can be lost: in a shutdown, by a mishap or by a fault of a worker. -/
def Disturbed (p : Pipeline) (a : Action) : Prop :=
  (∃ s, p.closed.get s = true) ∨ p.table.isShutDown = true ∨ a.isMishap = true ∨
    ∃ place ∈ p.places, (∃ f, p.table.recordIssue place.id = .error f) ∨
      p.table.slot? place.id = none

/-- What a move does to the slots, the places and the tokens. -/
inductive Entry (p : Pipeline) (a : Action) (p' : Pipeline) : List Event → Prop where
  /-- Nothing. -/
  | idle {es : List Event} (hes : ∀ e ∈ es, e.slot? = none)
      (hslots : p'.table.slots = p.table.slots) (hplaces : p'.places.Perm p.places)
      (htokens : p'.tokens.Perm p.tokens) : Entry p a p' es
  /-- Writes lose their places, or tokens are lost. -/
  | lose {es : List Event} {gone : List Place} (hes : ∀ e ∈ es, e.slot? = none)
      (hslots : p'.table.slots = p.table.slots) (hplaces : p.places.Perm (gone ++ p'.places))
      (htokens : p'.tokens.Subperm p.tokens) (hcause : p.Disturbed a) : Entry p a p' es
  /-- A write gets its slot. -/
  | claim {id : WriteId} {g : Generation} (hacquire : p.table.acquire id = .granted p'.table g)
      (hplaces : p'.places.Perm (.admitted id :: p.places)) (htokens : p'.tokens.Perm p.tokens) :
      Entry p a p' [.acquired id g]
  /-- An operation is put on record. -/
  | issue {s : Stage} {id : WriteId} {op : Operation} {left : List Operation} {g : Generation}
      {rest : List Place} (hop : op.stage = s)
      (hissue : p.table.recordIssue id = .ok (p'.table, g))
      (hplaces : p.places.Perm (⟨id, op :: left, s.index, none⟩ :: rest))
      (hplaces' : p'.places.Perm (⟨id, left, s.index, some ⟨id, op, g⟩⟩ :: rest))
      (htokens : p'.tokens.Perm (⟨id, op, g⟩ :: p.tokens)) : Entry p a p' [.issued s ⟨id, op, g⟩]
  /-- A write gives its token away or passes a join. -/
  | progress {es : List Event} {place : Place} {passed : Nat} {rest : List Place}
      (hes : ∀ e ∈ es, e.slot? = none) (hslots : p'.table.slots = p.table.slots)
      (hplaces : p.places.Perm (place :: rest))
      (hplaces' : p'.places.Perm (⟨place.id, place.left, passed, none⟩ :: rest))
      (hpassed : ∀ op : Operation, op.stage.index < passed → op.stage.index < place.passed ∨
        ∃ slot, p.table.slot? place.id = some slot ∧ slot.completed.contains op = true)
      (htokens : p'.tokens.Perm p.tokens) : Entry p a p' es
  /-- The checkpoint of a write is marked as done. -/
  | settle {id : WriteId} {released : Bool}
      (hmark : p.table.markCheckpointDone id = .ok (p'.table, released))
      (hplaces : p.places.Perm (⟨id, [], 3, none⟩ :: p'.places))
      (htokens : p'.tokens.Perm p.tokens) : Entry p a p' [.checkpointed id released]
  /-- An operation is reported complete, by write id or with a token. -/
  | report {id : WriteId} {op : Operation} {g : Option Generation} {v : Table.Verdict}
      (hreport : p.table.recordCompletion id op g = (p'.table, v))
      (hplaces : p'.places.Perm p.places)
      (htokens : (a = .report id op ∧ p'.tokens.Perm p.tokens) ∨
        ∃ t, a = .complete t ∧ t.writeId = id ∧ t.operation = op ∧ g = some t.generation ∧
          p.tokens.Perm (t :: p'.tokens)) : Entry p a p' [.reported id op g v]

theorem slot?_of_isNote {e : Event} (h : e.isNote = true) : e.slot? = none := by
  cases e <;> simp_all [Event.isNote, Event.slot?]

/-! ### Places of one worker and of one queue -/

/-- A `setPhase` to a phase that holds the same write at the same place leaves all places. -/
private theorem places_setPhase_same (phase : Phase)
    (h : phase.place? s = (p.workers.get s).place? s) :
    (p.setPhase s phase).places.Perm p.places := by
  have hset := p.places_setPhase s phase
  rw [h] at hset
  exact (List.perm_append_left_iff _).mp hset

/-- A `setPhase` to a phase that holds no write takes away the place that the worker contributed. -/
theorem places_setPhase_none (phase : Phase) (h : phase.place? s = none) :
    p.places.Perm (((p.workers.get s).place? s).toList ++ (p.setPhase s phase).places) := by
  have hset := p.places_setPhase s phase
  rw [h] at hset
  exact hset.symm

/-- A `setPhase` of a worker that holds a write before and after exchanges its place for the new
one. -/
theorem places_setPhase_some (phase : Phase) {place place' : Place}
    (hold : (p.workers.get s).place? s = some place) (hnew : phase.place? s = some place') :
    ∃ rest, p.places.Perm (place :: rest) ∧ (p.setPhase s phase).places.Perm (place' :: rest) := by
  have hnone := places_setPhase_none (p := p) (s := s) .popping rfl
  rw [hold] at hnone
  refine ⟨_, hnone, ?_⟩
  have hset := p.places_setPhase s phase
  rw [hold, hnew] at hset
  exact List.Perm.cons_inv (a := place)
    ((hset.trans (hnone.cons place')).trans (List.Perm.swap ..))

/-- The write that a worker holds at its `place?` is among the `places`. -/
theorem mem_places_of_phase {place : Place} (h : (p.workers.get s).place? s = some place) :
    place ∈ p.places := by
  have hnone := places_setPhase_none (p := p) (s := s) .popping rfl
  rw [h] at hnone
  exact hnone.mem_iff.mpr List.mem_cons_self

/-- A write that is put at the end of a line is at `Place.queued` in that queue. -/
private theorem places_push (p : Pipeline) (t : Stage) (id : WriteId) :
    Pipeline.places { p with lines := p.lines.set t (p.lines.get t ++ [id]) } |>.Perm
      (.queued t id :: p.places) := by
  have hset := p.places_setLine t (p.lines.get t ++ [id])
  rw [List.map_append, List.append_assoc] at hset
  exact (List.perm_append_left_iff _).mp hset

/-- A write that a submitter holds has the place `admitted`. -/
theorem places_admitted {id : WriteId} {admitted : List WriteId}
    (h : p.admitted.Perm (id :: admitted)) :
    p.places.Perm (.admitted id :: Pipeline.places { p with admitted }) := by
  unfold places
  rw [List.append_assoc, List.append_assoc]
  exact (h.map Place.admitted).append_right _

/-- The `tokens` follow the places if the device has the same as before. -/
private theorem tokens_perm {places : List Place} (h : p'.places.Perm places)
    (houtstanding : p'.outstanding = p.outstanding)
    (htokens : places.filterMap Place.token? = p.places.filterMap Place.token?) :
    p'.tokens.Perm p.tokens := by
  unfold tokens
  rw [houtstanding, ← htokens]
  exact (h.filterMap _).append_left _

/-! ### Moves -/

/-- A worker that ends loses the write that it holds, with its token. Whatever ends it is one of the
disturbances (`Disturbed`). -/
private theorem entry_over {phase : Phase} (hes : ∀ e ∈ es, e.slot? = none)
    (hphase : phase.place? s = none) (hcause : p.Disturbed a) :
    p.Entry a (p.setPhase s phase) es := by
  have hplaces := places_setPhase_none (p := p) phase hphase
  refine .lose hes rfl hplaces ?_ hcause
  have htokens := (hplaces.filterMap Place.token?).append_left p.outstanding
  rw [List.filterMap_append] at htokens
  refine List.Subperm.trans ?_ htokens.symm.subperm
  exact ((List.sublist_append_right _ _).append_left _).subperm

/-- A worker that puts an operation on record issues it: `Entry.issue`. -/
private theorem entry_record {id : WriteId} {op : Operation} {left : List Operation} {t : Table}
    {g : Generation} (hphase : p.workers.get s = .issuing id (op :: left)) (hop : op.stage = s)
    (hissue : p.table.recordIssue id = .ok (t, g)) :
    p.Entry a ({ p with table := t }.setPhase s (.handing ⟨id, op, g⟩ left))
      [.issued s ⟨id, op, g⟩] := by
  obtain ⟨rest, hplaces, hplaces'⟩ := places_setPhase_some (p := { p with table := t }) (s := s)
    (.handing ⟨id, op, g⟩ left) (by rw [hphase]; rfl) rfl
  refine .issue hop hissue hplaces hplaces' ?_
  have htokens := (hplaces.filterMap Place.token?).append_left p.outstanding
  have htokens' := (hplaces'.filterMap Place.token?).append_left p.outstanding
  exact htokens'.trans (List.perm_middle.trans (htokens.symm.cons _))

/-- A worker that goes on from `handing` gives its token from its place to the device, so the tokens
are the same. -/
private theorem entry_hand {t : Token} {left : List Operation}
    (hphase : p.workers.get s = .handing t left) :
    p.Entry a ({ p with outstanding := p.outstanding ++ [t] }.setPhase s
      (.issuing t.writeId left)) [.handed s t] := by
  obtain ⟨rest, hplaces, hplaces'⟩ := places_setPhase_some
    (p := { p with outstanding := p.outstanding ++ [t] }) (s := s)
    (.issuing t.writeId left) (by rw [hphase]; rfl) rfl
  -- Neither the operations that are left nor the joins that are passed change.
  refine .progress (by simp [Event.slot?]) rfl hplaces hplaces' (fun _ => .inl) ?_
  have htokens := (hplaces.filterMap Place.token?).append_left p.outstanding
  have htokens' := (hplaces'.filterMap Place.token?).append_left (p.outstanding ++ [t])
  refine htokens'.trans ?_
  rw [List.append_assoc]
  exact htokens.symm

/-- A panic of the device (`devicePanic`) ends the worker, whose token is with the device then. -/
private theorem entry_devicePanic {t : Token} {left : List Operation}
    (hphase : p.workers.get s = .handing t left) :
    p.Entry (.devicePanic s)
      ({ p with outstanding := p.outstanding ++ [t] }.setPhase s (.crashed .device))
      [.handed s t] := by
  have hplaces := places_setPhase_none (p := { p with outstanding := p.outstanding ++ [t] })
    (s := s) (.crashed .device) rfl
  rw [show ((p.workers.get s).place? s) = some ⟨t.writeId, left ++ s.after, s.index, some t⟩ by
    rw [hphase]; rfl] at hplaces
  refine .lose (by simp [Event.slot?]) rfl hplaces ?_ (.inr (.inr (.inl rfl)))
  have htokens := (hplaces.filterMap Place.token?).append_left p.outstanding
  refine List.Perm.subperm (List.Perm.trans ?_ htokens.symm)
  refine List.Perm.of_eq ?_
  show (p.outstanding ++ [t]) ++ _ = p.outstanding ++ (t :: _)
  rw [List.append_assoc, List.singleton_append]
  rfl

/-- A worker whose join holds has its write at a place with one more join passed. -/
private theorem entry_advance {id : WriteId} {slot : Slot} (hes : ∀ e ∈ es, e.isNote = true)
    (hphase : p.workers.get s = .issuing id []) (hslot : p.table.slot? id = some slot)
    (hjoin : slot.completed.containsAll s.join = true) :
    p.Entry a (p.setPhase s (if s.next = none then .notifying id else .pushing id)) es := by
  have hnew : (if s.next = none then Phase.notifying id else .pushing id).place? s =
      some ⟨id, s.after, s.index + 1, none⟩ := by split <;> rfl
  obtain ⟨rest, hplaces, hplaces'⟩ := places_setPhase_some (p := p) (s := s) _
    (by rw [hphase]; rfl) hnew
  refine .progress (fun e he => slot?_of_isNote (hes e he)) rfl hplaces hplaces' ?_ ?_
  · intro op hop
    rcases Nat.lt_succ_iff_lt_or_eq.mp hop with hlt | heq
    · exact .inl hlt
    · refine .inr ⟨slot, hslot, OpSet.containsAll_iff.mp hjoin op ?_⟩
      rw [Stage.contains_join, decide_eq_true_eq]
      exact Stage.index_inj heq
  · have htokens := (hplaces.filterMap Place.token?).append_left p.outstanding
    exact ((hplaces'.filterMap Place.token?).append_left p.outstanding).trans htokens.symm

/-- A write that is taken leaves its queue and is with the worker, with the same operations left. -/
private theorem entry_take {id : WriteId} {rest : List WriteId}
    (hphase : p.workers.get s = .popping) (hline : p.lines.get s = id :: rest) :
    p.Entry a ({ p with lines := p.lines.set s rest }.setPhase s (.issuing id s.operations))
      [] := by
  have hline' := p.places_setLine s rest
  rw [hline, List.map_cons, List.cons_append] at hline'
  have hmid : p.places.Perm
      (.queued s id :: Pipeline.places { p with lines := p.lines.set s rest }) :=
    ((List.perm_append_left_iff _).mp (hline'.symm.trans List.perm_middle.symm))
  have hset := Pipeline.places_setPhase { p with lines := p.lines.set s rest } s
    (.issuing id s.operations)
  rw [show ({ p with lines := p.lines.set s rest } : Pipeline).workers.get s = .popping from
    hphase] at hset
  have hplaces := hset.trans (show List.Perm _ p.places by
    rw [Phase.place?, Stage.operations_append_after]
    exact hmid.symm)
  exact .idle nofun rfl hplaces (tokens_perm hplaces rfl rfl)

/-- Behind the join of its stage and in the next queue a write has the same operations left. -/
private theorem entry_pass {t : Stage} {id : WriteId} (hnext : s.next = some t)
    (hphase : p.workers.get s = .pushing id) :
    p.Entry a ({ p with lines := p.lines.set t (p.lines.get t ++ [id]) }.setPhase s .popping)
      [] := by
  have hpush := places_push p t id
  have hset := places_setPhase_none
    (p := { p with lines := p.lines.set t (p.lines.get t ++ [id]) }) (s := s)
    .popping rfl
  rw [show ({ p with lines := p.lines.set t (p.lines.get t ++ [id]) } : Pipeline).workers.get s =
    .pushing id from hphase, Phase.place?, ← Stage.onward_of_next hnext,
    ← Stage.index_next hnext] at hset
  have hplaces := List.Perm.cons_inv (hset.symm.trans hpush)
  exact .idle nofun rfl hplaces (tokens_perm hplaces rfl rfl)

/-- A worker that marks a write gives up its place: `Entry.settle`. -/
private theorem entry_mark {id : WriteId} {t : Table} {released : Bool}
    (hphase : p.workers.get s = .marking id) (hlast : s.next = none)
    (hmark : p.table.markCheckpointDone id = .ok (t, released)) :
    p.Entry a ({ p with table := t }.setPhase s .popping) [.checkpointed id released] := by
  obtain ⟨hafter, hindex⟩ := Stage.after_of_last hlast
  have hplaces := places_setPhase_none (p := { p with table := t }) (s := s)
    .popping rfl
  rw [show ({ p with table := t } : Pipeline).workers.get s = .marking id from hphase,
    Phase.place?, hafter, hindex] at hplaces
  exact .settle hmark hplaces
    (tokens_perm (p := { p with table := t }.setPhase s .popping) hplaces rfl rfl).symm

/-- Every `Move` is an `Entry`. Many moves are the same entry: it matters that a write goes on, not
from where to where. -/
theorem Move.entry (hmove : p.Move a es p') (hsuits : ∀ s, Suits s (p.workers.get s)) :
    p.Entry a p' es := by
  cases hmove with
  | note hes =>
    exact .idle (fun e he => slot?_of_isNote (hes e he)) rfl (List.Perm.refl _) (List.Perm.refl _)
  | @acquire k id t g admitted hacquire hadmitted =>
    have hplaces := places_admitted (p := { p with table := t, admitted }) hadmitted
    exact .claim hacquire hplaces (tokens_perm hplaces rfl rfl)
  | @accept k id admitted hopen hadmitted =>
    have hpush := places_push { p with admitted } .metadata id
    have hplaces := hpush.trans (places_admitted hadmitted).symm
    exact .idle (by simp [Event.slot?]) rfl hplaces (tokens_perm hplaces rfl rfl)
  | @turnAway k id admitted es hes hclosed hadmitted =>
    have hplaces := places_admitted hadmitted
    exact .lose (fun e he => slot?_of_isNote (hes e he)) rfl
      (show p.places.Perm ([Place.admitted id] ++ _) from hplaces)
      (tokens_perm (p := { p with admitted }) hplaces rfl rfl).symm.subperm
      (.inl ⟨.metadata, hclosed⟩)
  | take hphase hline => exact entry_take hphase hline
  | stop hes hcause =>
    exact entry_over (fun e he => slot?_of_isNote (hes e he)) rfl
      (hcause.elim .inl (.inr ∘ .inl))
  | @record s id op left t g hphase hissue =>
    have hs := hsuits s
    rw [hphase] at hs
    exact entry_record hphase (hs op List.mem_cons_self) hissue
  | hand hphase => exact entry_hand hphase
  | advance hes hphase hslot hjoin => exact entry_advance hes hphase hslot hjoin
  | pass hnext hphase => exact entry_pass hnext hphase
  | @notify s id hphase =>
    have hplaces := places_setPhase_same (p := p) (s := s) (.marking id)
      (by rw [hphase]; rfl)
    exact .idle (by simp [Event.slot?]) rfl hplaces (tokens_perm hplaces rfl rfl)
  | @mark s id t released hphase hmark =>
    have hs := hsuits s
    rw [hphase] at hs
    exact entry_mark hphase hs hmark
  | @fault s f id hphase hcause =>
    obtain ⟨place, hplace, rfl⟩ := Phase.place?_of_held? (s := s) hphase
    refine entry_over nofun rfl
      (.inr (.inr (.inr ⟨place, mem_places_of_phase hplace, ?_⟩)))
    exact hcause.imp_left fun hf => ⟨f, hf⟩
  | clientPanic hphase => exact entry_over (by simp [Event.slot?]) rfl (.inr (.inr (.inl rfl)))
  | devicePanic hphase => exact entry_devicePanic hphase
  | @complete t table v hmem hreport =>
    refine .report hreport (List.Perm.refl _) (.inr ⟨t, rfl, rfl, rfl, rfl, ?_⟩)
    exact (List.perm_cons_erase hmem).append_right _
  | @drop t hmem =>
    refine .lose (by simp [Event.slot?]) rfl
      (show p.places.Perm ([] ++ p.places) from List.Perm.refl _) ?_
      (.inr (.inr (.inl rfl)))
    exact (List.erase_sublist.append_right _).subperm
  | report hreport =>
    exact .report hreport (List.Perm.refl _) (.inl ⟨rfl, List.Perm.refl _⟩)
  | close => exact .idle nofun rfl (List.Perm.refl _) (List.Perm.refl _)
  | abort => exact .idle nofun rfl (List.Perm.refl _) (List.Perm.refl _)
  | turn hes =>
    exact .idle (fun e he => slot?_of_isNote (hes e he)) rfl (List.Perm.refl _) (List.Perm.refl _)

end Pipeline

end WriteAhead
