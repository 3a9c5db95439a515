import WriteAhead.Proofs.Journal.Backlog
import WriteAhead.Proofs.Journal.Ordering
import WriteAhead.Proofs.Journal.Submissions

/-!
# How far a stall reaches

If the device withholds one token, the worker that waits for it never goes on, and the stages behind
it run dry. The stages in front of it fill up: each worker in front of the stalled one holds a write
for which there is no room, and each queue is full. So when nobody can go on, each stage in front
has processed one write and one queue more than the one behind it, as far as there are writes, and
the client was told of just those that were requested before the write that is stuck.

## Key results

- `Run.completed_of_notified`: the client is told of a write only if all its tokens were completed
- `IsStill.reach`: at rest a stage is a queue and a write ahead of the next one
- `Run.stalled`: where a journal comes to rest if one token is withheld
-/

namespace WriteAhead

namespace Pipeline

variable {c : Config} {as : List Journal.Action} {p p' : Pipeline} {es : List Event}
  {a : Journal.Action} {id : WriteId} {op : Operation} {g : Option Generation} {v : Table.Verdict}

/-! ## Completions behind a notification -/

/-- A `reported` event is that of a completion with a token, or of a report by write id. -/
theorem Move.reported (hmove : p.Move a es p') (h : .reported id op g v ∈ es) :
    a = .report id op ∨ ∃ t, a = .complete t ∧ t.writeId = id ∧ t.operation = op := by
  cases hmove with
  | note hes | turnAway hes | stop hes | advance hes | turn hes => exact absurd (hes _ h) nofun
  | @complete t =>
    obtain ⟨rfl, rfl, -⟩ := Event.reported.inj (List.mem_singleton.mp h)
    exact .inr ⟨t, rfl, rfl, rfl⟩
  | report =>
    obtain ⟨rfl, rfl, -⟩ := Event.reported.inj (List.mem_singleton.mp h)
    exact .inl rfl
  | _ => simp at h

/-- Without reports by write id, whatever was `reported` was completed with a token. -/
theorem Run.completed_of_reported (hrun : Run c as p es) (has : ∀ id op, .report id op ∉ as)
    (h : .reported id op g v ∈ es) : ∃ t, .complete t ∈ as ∧ t.writeId = id ∧ t.operation = op := by
  induction hrun with
  | start hes => exact absurd (hes _ h) nofun
  | @move as p p' es es' a hrun hmove ih =>
    rcases List.mem_append.mp h with h | h
    · obtain ⟨t, hmem, ht⟩ := ih (fun i o hmem => has i o (List.mem_append_left _ hmem)) h
      exact ⟨t, List.mem_append_left _ hmem, ht⟩
    · have hlast : a ∈ as ++ [a] := List.mem_append_right _ (List.mem_singleton_self a)
      rcases hmove.reported h with rfl | ⟨t, rfl, ht⟩
      · exact absurd hlast (has id op)
      · exact ⟨t, hlast, ht⟩

/-- The client was told only of writes all of whose operations were `reported`. -/
theorem Run.reported_of_notified (hrun : Run c as p es) (h : .notified id ∈ es) (op : Operation) :
    ∃ g v, .reported id op g v ∈ es := by
  induction hrun with
  | start hes => exact absurd (hes _ h) nofun
  | @move as p p' es es' a hrun hmove ih =>
    rcases List.mem_append.mp h with h | h
    · obtain ⟨g, v, hmem⟩ := ih h
      exact ⟨g, v, List.mem_append_left _ hmem⟩
    · obtain ⟨slot, -, hsecured⟩ := secured_of_notified hrun hmove h
      obtain ⟨e, he, hcompletes⟩ := List.mem_filterMap.mp (hsecured.reported op trivial)
      cases e with
      | reported i o g v =>
        simp only [Event.completes?, Option.ite_none_right_eq_some, Option.some.injEq] at hcompletes
        obtain ⟨⟨rfl, -⟩, rfl⟩ := hcompletes
        exact ⟨g, v, List.mem_append_left _ (hsecured.occupancy.since_subset he)⟩
      | _ => cases hcompletes

/-! ## What is underway -/

/-- A write in a queue or with a worker that goes on still gets to the client: it is `underway`. -/
theorem mem_underway (halive : p.Alive) {s : Stage}
    (h : id ∈ p.lines.get s ∨ (p.workers.get s).carried? = some id) : id ∈ p.underway := by
  simp only [underway, through, halive _, Bool.false_eq_true, if_false, List.mem_append,
    Option.mem_toList]
  cases s <;> rcases h with h | h <;> simp [h]

/-- Behind a stage that lets everything through, what comes later is all that is `underway`. -/
theorem through_of_idle {s : Stage} (hphase : p.workers.get s = .popping)
    (hline : p.lines.get s = []) (later : List WriteId) : p.through s later = later := by
  simp [through, hphase, hline, Phase.isOver, Phase.carried?, Phase.held?]

end Pipeline

namespace Journal

variable {c : Config} {as : List Action} {j : Journal} {es : List Event} {s t : Stage}
  {id : WriteId} {op : Operation}

/-- With tokens alone, the client is told of a write (`notified`) only if all its tokens were
completed. -/
theorem Run.completed_of_notified (hrun : Run c as j es) (has : ∀ id op, .report id op ∉ as)
    (h : .notified id ∈ es) (op : Operation) :
    ∃ t, .complete t ∈ as ∧ t.writeId = id ∧ t.operation = op := by
  obtain ⟨g, v, hmem⟩ := hrun.pipeline.reported_of_notified h op
  exact hrun.pipeline.completed_of_reported has hmem

/-- No stage takes more than was accepted: `popped` is at most `pushed`. -/
theorem Run.popped_le_pushed (hrun : Run c as j es) (s : Stage) :
    (j.queue s).popped ≤ (j.queue .metadata).pushed := by
  have hqueued := hrun.tally.queued
  have hpassed (s : Stage) : j.passed es s ≤ (j.queue s).popped :=
    (hrun.tally.workers s).passed_le.trans (hrun.tally.workers s).processed_le
  have hmetadata : (j.queue .commit).pushed ≤ (j.queue .metadata).popped := hpassed .metadata
  have hcommit : (j.queue .checkpoint).pushed ≤ (j.queue .commit).popped := hpassed .commit
  have hpopped (s : Stage) : (j.queue s).popped ≤ (j.queue s).pushed := by
    rw [hqueued s]
    exact Nat.le_add_right _ _
  cases s with
  | metadata => exact hpopped .metadata
  | commit => exact (hpopped .commit).trans (hmetadata.trans (hpopped .metadata))
  | checkpoint =>
    exact (hpopped .checkpoint).trans
      (hcommit.trans ((hpopped .commit).trans (hmetadata.trans (hpopped .metadata))))

/-- A write whose join is awaited comes first of all `underway` if the stages behind it have run
dry. -/
theorem underway_eq_cons (hphase : (j.workers.get s).phase = .awaitingJoin id)
    (hidle : ∀ u : Stage, s.index < u.index →
      (j.workers.get u).phase = .awaitingItem ∧ (j.queue u).items = []) :
    ∃ rest, j.pipeline.underway = id :: rest := by
  -- The stages behind `s` have nothing in hand or in line, so the write of `s` is the first
  -- underway.
  have hthrough (u : Stage) (hu : s.index < u.index) (later : List WriteId) :
      j.pipeline.through u later = later := by
    refine Pipeline.through_of_idle ?_ ?_ later
    · rw [workers_pipeline, (hidle u hu).1]
      rfl
    · rw [lines_pipeline, (hidle u hu).2]
  have hself (later : List WriteId) : ∃ rest, j.pipeline.through s later = id :: rest := by
    rw [Pipeline.through, workers_pipeline, hphase]
    exact ⟨_, rfl⟩
  unfold Pipeline.underway
  cases s with
  | metadata =>
    rw [hthrough .checkpoint (by decide), hthrough .commit (by decide)]
    exact hself _
  | commit =>
    rw [hthrough .checkpoint (by decide)]
    exact hself _
  | checkpoint => exact hself _

/-! ## A journal at rest -/

namespace IsStill

section

variable (h : j.IsStill) (hrun : Run c as j es) (hkeeps : j.pipeline.Keeps es)

include h hrun hkeeps

/-- At rest what a stage has `processed` is what it has `popped`, but for a write whose join it
awaits. -/
theorem popped_eq (s : Stage) (hjoin : ∀ id, (j.workers.get s).phase ≠ .awaitingJoin id) :
    (j.queue s).popped = (j.workers.get s).processed := by
  have halive := hkeeps.alive s
  rw [workers_pipeline, Phase.isOver_awake] at halive
  have hpopped := ((hrun.tally.workers s).eq_of_alive halive).1
  rcases h.phase_cases hkeeps.alive hrun.pipeline.suited s with hphase | ⟨id, hphase⟩ |
    ⟨id, t, -, hphase⟩
  · rwa [hphase] at hpopped
  · exact absurd hphase (hjoin id)
  · rwa [hphase] at hpopped

/-- At rest what a stage has `processed` is what it has passed on, but for a write that it
cannot. -/
theorem processed_eq (s : Stage) (hroom : ∀ id, (j.workers.get s).phase ≠ .awaitingRoom id) :
    (j.workers.get s).processed = j.passed es s := by
  have halive := hkeeps.alive s
  rw [workers_pipeline, Phase.isOver_awake] at halive
  have hprocessed := ((hrun.tally.workers s).eq_of_alive halive).2
  rcases h.phase_cases hkeeps.alive hrun.pipeline.suited s with hphase | ⟨id, hphase⟩ |
    ⟨id, t, -, hphase⟩
  · rwa [hphase] at hprocessed
  · rwa [hphase] at hprocessed
  · exact absurd hphase (hroom id)

/-- A stage that is idle has passed on all that was `pushed` to it. -/
theorem pushed_of_idle (hidle : (j.workers.get s).phase = .awaitingItem ∧ (j.queue s).items = []) :
    (j.queue s).pushed = j.passed es s := by
  have hpushed := h.pushed_eq hrun hkeeps s
  rw [hidle.1, hidle.2] at hpushed
  exact hpushed

/-- In front of idle stages a stage `passed` on all of which the client was told. -/
theorem passed_of_idle_after (hidle : ∀ u : Stage, s.index < u.index →
    (j.workers.get u).phase = .awaitingItem ∧ (j.queue u).items = []) :
    j.passed es s = (es.filterMap Event.notified?).length := by
  have hcheckpoint (hlt : s.index < 2) : (j.queue .checkpoint).pushed =
      (es.filterMap Event.notified?).length :=
    h.pushed_of_idle hrun hkeeps (hidle .checkpoint hlt)
  have hcommit (hlt : s.index < 1) : (j.queue .commit).pushed = (j.queue .checkpoint).pushed :=
    h.pushed_of_idle hrun hkeeps (hidle .commit hlt)
  cases s with
  | metadata => exact (hcommit (by decide)).trans (hcheckpoint (by decide))
  | commit => exact hcheckpoint (by decide)
  | checkpoint => rfl

/-- Behind idle stages as many writes were `pushed` as to the first queue. -/
theorem pushed_of_idle_before (hidle : ∀ u : Stage, u.index < s.index →
    (j.workers.get u).phase = .awaitingItem ∧ (j.queue u).items = []) :
    (j.queue s).pushed = (j.queue .metadata).pushed := by
  have hmetadata (hlt : 0 < s.index) : (j.queue .metadata).pushed = (j.queue .commit).pushed :=
    h.pushed_of_idle hrun hkeeps (hidle .metadata hlt)
  have hcommit (hlt : 1 < s.index) : (j.queue .commit).pushed = (j.queue .checkpoint).pushed :=
    h.pushed_of_idle hrun hkeeps (hidle .commit hlt)
  cases s with
  | metadata => rfl
  | commit => exact (hmetadata (by decide)).symm
  | checkpoint => exact ((hmetadata (by decide)).trans (hcommit (by decide))).symm

end

section

variable (h : j.IsStill) (hrun : Run c as j es) (hopen : j.closing = .open)
  (hkeeps : j.pipeline.Keeps es)

include h hrun hopen hkeeps

/-- At rest a stage whose writes do not wait for a join is a queue and a write ahead of the next
one, as far as there are writes: they are `n`, or the first queue is full. -/
theorem reach {n : Nat} (hnext : s.next = some t)
    (hjoin : ∀ u : Stage, u.index ≤ s.index → ∀ id, (j.workers.get u).phase ≠ .awaitingJoin id)
    (hle : (j.queue .metadata).pushed ≤ n)
    (hsupply : (j.queue .metadata).pushed = n ∨ c.bufferSize ≤ (j.queue .metadata).items.length) :
    (j.queue s).popped = min n ((j.queue t).popped + (c.bufferSize + 1)) := by
  have hqueued := hrun.tally.queued t
  have hpassed : j.passed es s = (j.queue t).pushed := by rw [passed, hnext]
  have hroom : (j.queue t).items.length ≤ c.bufferSize := (hrun.fits t).2
  have hpopped := h.popped_eq hrun hkeeps s (hjoin s (Nat.le_refl _))
  rcases h.phase_cases hkeeps.alive hrun.pipeline.suited s with hphase | ⟨id, hphase⟩ |
    ⟨id, u, hu, hphase⟩
  · -- The stage has run dry, and so have those in front of it: there are no more writes.
    have hitems := h.items_eq_nil hrun hopen hkeeps hphase
    have hbefore := h.idle (P := fun u => u.index < s.index) hrun hopen hkeeps
      (fun u hu => hjoin u (Nat.le_of_lt hu)) fun u v hu hv => by
        have hindex := Stage.index_next hv
        rcases Nat.lt_or_eq_of_le (show v.index ≤ s.index by omega) with hlt | heq
        · exact .inl hlt
        · rw [Stage.index_inj heq]
          exact .inr hitems
    have hdry : (j.queue .metadata).items = [] := by
      by_cases hs : s = .metadata
      · rw [← hs, hitems]
      · exact (hbefore .metadata (by cases s <;> simp_all [Stage.index])).2
    have hpos := hrun.bufferSize_pos
    have hall : (j.queue .metadata).pushed = n := by
      refine hsupply.resolve_right ?_
      rw [hdry, List.length_nil]
      omega
    have hpushed := h.pushed_of_idle_before hrun hkeeps hbefore
    have hself := h.pushed_of_idle hrun hkeeps ⟨hphase, hitems⟩
    have hprocessed := h.processed_eq hrun hkeeps s (by simp [hphase])
    omega
  · exact absurd hphase (hjoin s (Nat.le_refl _) id)
  · -- There is no room for the write of the worker, so the next queue is full.
    obtain rfl : t = u := Option.some.inj (hnext.symm.trans hu)
    have hfull := h.full_of_awaitingRoom hrun hopen hkeeps hnext hphase
    have hprocessed : (j.workers.get s).processed = j.passed es s + 1 := by
      have halive := hkeeps.alive s
      rw [workers_pipeline, Phase.isOver_awake] at halive
      have hprocessed := ((hrun.tally.workers s).eq_of_alive halive).2
      rwa [hphase] at hprocessed
    have hsome := hrun.popped_le_pushed s
    omega

/-- At rest the writes in `held` were accepted, unless one waits for room at the full first
queue. -/
theorem mem_accepted (hmem : id ∈ j.held) :
    id ∈ es.filterMap Event.accepted? ∨ c.bufferSize ≤ (j.queue .metadata).items.length := by
  have haccepted {s : Stage}
      (hs : id ∈ (j.queue s).items ∨ (j.workers.get s).phase.held? = some id) :
      id ∈ es.filterMap Event.accepted? := by
    rw [← hrun.pipeline.delivers.eq_of_alive hkeeps.alive]
    refine List.mem_append_right _ (Pipeline.mem_underway (s := s) hkeeps.alive ?_)
    rw [lines_pipeline, workers_pipeline]
    refine hs.imp_right fun hheld => ?_
    rcases h.phase_cases hkeeps.alive hrun.pipeline.suited s with hphase | ⟨i, hphase⟩ |
      ⟨i, t, -, hphase⟩ <;> rw [hphase] at hheld ⊢ <;> exact hheld
  rw [held, List.mem_append, List.mem_append] at hmem
  rcases hmem with (hcaller | hqueue) | hworker
  · -- With a submitter: it waits for room.
    obtain ⟨caller, hcaller, hheld⟩ := List.mem_filterMap.mp hcaller
    have hroom : caller.awaitsRoom = true := by rw [← h.isSome_held hcaller, hheld]; rfl
    obtain ⟨k, hk⟩ := List.getElem?_of_mem hcaller
    unfold Caller.awaitsRoom at hroom
    split at hroom
    · exact .inr (h.full_of_submitter hrun hopen hkeeps hk)
    · cases hroom
  · obtain ⟨s, -, hline⟩ := List.mem_flatMap.mp hqueue
    exact .inl (haccepted (.inl hline))
  · obtain ⟨s, -, hheld⟩ := List.mem_filterMap.mp hworker
    exact .inl (haccepted (.inr hheld))

/-- At rest a sole submitter of distinct writes has none `left`, or the first queue is full: it
never waits for a slot, since nobody else has it. -/
theorem supply {ids left : List WriteId} (hnodup : ids.Nodup) (hpending : j.pending = [left])
    (horder : es.filterMap Event.accepted? ++ left = ids) :
    left = [] ∨ c.bufferSize ≤ (j.queue .metadata).items.length := by
  have hmem : left ∈ j.pending := by
    rw [hpending]
    exact List.mem_singleton_self _
  obtain ⟨caller, hmem, hleft⟩ := List.mem_filterMap.mp hmem
  obtain ⟨k, hcaller⟩ := List.getElem?_of_mem hmem
  have hstep := (h.caller k).2
  rw [callerStep, hcaller] at hstep
  cases caller with
  | drainer => cases hleft
  | submitter point rest answers =>
    obtain rfl := Option.some.inj hleft
    cases point with
    | between =>
      cases rest with
      | nil => exact .inl rfl
      | cons id rest => cases hstep
    | admitted id => cases hstep
    | awaitingRoom id => exact .inr (h.full_of_submitter hrun hopen hkeeps hcaller)
    | awaitingSlot id =>
      have hwant : j.tableWant? (.caller k) = some (.slot id) := by
        rw [tableWant?, hcaller]
        rfl
      obtain ⟨slot, hslot, huse⟩ := h.lacks hrun hwant
      obtain ⟨place, hplace, rfl⟩ := hkeeps.kept.placed id slot hslot huse
      have hheld : place.id ∈ j.held := by
        rw [← places_held]
        exact List.mem_map_of_mem hplace
      refine (h.mem_accepted hrun hopen hkeeps hheld).imp_left fun haccepted => ?_
      -- The write was accepted already, and it is requested once.
      rw [← horder, List.nodup_append] at hnodup
      exact absurd rfl (hnodup.2.2 _ haccepted _ List.mem_cons_self)

end

end IsStill

/-! ## A stalled journal -/

/-- The device withholds the token of one operation of a write: it has completed all others, and it
never completes that one, which it may drop. -/
structure Withholds (as : List Action) (j : Journal) (id : WriteId) (op : Operation) : Prop where
  outstanding : ∀ t ∈ j.outstanding, t.writeId = id ∧ t.operation = op
  completed : ∀ t, .complete t ∈ as → ¬ (t.writeId = id ∧ t.operation = op)
  dropped : ∀ t, .drop t ∈ as → t.writeId = id ∧ t.operation = op

/-- At rest no worker waits for a join but that of the operation that the device `Withholds`. -/
theorem Withholds.eq_of_awaitingJoin (hwithholds : Withholds as j id op) (h : j.IsStill)
    (hrun : Run c as j es) (hkeeps : j.pipeline.Keeps es) {i : WriteId}
    (hphase : (j.workers.get s).phase = .awaitingJoin i) : s = op.stage ∧ i = id := by
  obtain ⟨t, rfl, rfl, hmem | hmem⟩ := h.awaited hrun hkeeps hphase
  · obtain ⟨hid, hop⟩ := hwithholds.outstanding t hmem
    exact ⟨by rw [hop], hid⟩
  · obtain ⟨hid, hop⟩ := hwithholds.dropped t (hrun.drop_of_dropped hmem)
    exact ⟨by rw [hop], hid⟩

section

variable {ids : List WriteId} {k : Nat}

/-- The stage of the withheld token (`Withholds`) is stuck with its write, and the stages behind it
have run dry. -/
theorem Withholds.stuck (hwithholds : Withholds as j id op) (h : j.IsStill) (hrun : Run c as j es)
    (hopen : j.closing = .open) (hkeeps : j.pipeline.Keeps es)
    (hreports : ∀ id op, .report id op ∉ as) {left : List WriteId} (hnodup : ids.Nodup)
    (hpending : j.pending = [left]) (horder : es.filterMap Event.accepted? ++ left = ids)
    (hid : id ∈ ids) :
    (j.workers.get op.stage).phase = .awaitingJoin id ∧
      ∀ u : Stage, op.stage.index < u.index →
        (j.workers.get u).phase = .awaitingItem ∧ (j.queue u).items = [] := by
  have hbehind := h.idle (P := fun u => op.stage.index < u.index) hrun hopen hkeeps
    (fun u hu i hphase => by
      rw [(hwithholds.eq_of_awaitingJoin h hrun hkeeps hphase).1] at hu
      exact Nat.lt_irrefl _ hu)
    fun u v hu hv => .inl (by rw [Stage.index_next hv]; omega)
  refine ⟨?_, hbehind⟩
  by_contra hphase
  -- Otherwise no worker waits for a join, all stages have run dry and the client knows of all
  -- writes.
  have hidle := h.idle (P := fun _ => True) hrun hopen hkeeps
    (fun u _ i hjoin => by
      obtain ⟨rfl, rfl⟩ := hwithholds.eq_of_awaitingJoin h hrun hkeeps hjoin
      exact hphase hjoin)
    fun _ _ _ _ => .inl trivial
  have hunderway : j.pipeline.underway = [] := by
    have hthrough (u : Stage) (later : List WriteId) : j.pipeline.through u later = later := by
      refine Pipeline.through_of_idle ?_ ?_ later
      · rw [workers_pipeline, (hidle u trivial).1]
        rfl
      · rw [lines_pipeline, (hidle u trivial).2]
    rw [Pipeline.underway, hthrough, hthrough, hthrough]
  have hleft : left = [] := by
    refine (h.supply hrun hopen hkeeps hnodup hpending horder).resolve_right ?_
    have hpos := hrun.bufferSize_pos
    rw [(hidle .metadata trivial).2, List.length_nil]
    omega
  have hnotified : es.filterMap Event.notified? = ids := by
    have hdelivers := hrun.pipeline.delivers.eq_of_alive hkeeps.alive
    rw [hunderway, List.append_nil] at hdelivers
    rw [hdelivers, ← horder, hleft, List.append_nil]
  have hmem : .notified id ∈ es := by
    rw [← hnotified] at hid
    obtain ⟨e, he, heq⟩ := List.mem_filterMap.mp hid
    cases e with
    | notified i =>
      obtain rfl := Option.some.inj heq
      exact he
    | _ => cases heq
  obtain ⟨t, hcomplete, ht⟩ := hrun.completed_of_notified hreports hmem op
  exact hwithholds.completed t hcomplete ht

/-- Up to the stage that is stuck with the `k`-th write, each stage has taken a queue and a write
more than the next one, as far as there are writes. -/
theorem IsStill.popped_of_stuck (h : j.IsStill) (hrun : Run c as j es) (hopen : j.closing = .open)
    (hkeeps : j.pipeline.Keeps es) {stuck : Stage} {n : Nat}
    (hjoin : ∀ u : Stage, u.index < stuck.index → ∀ i, (j.workers.get u).phase ≠ .awaitingJoin i)
    (hle : (j.queue .metadata).pushed ≤ n)
    (hsupply : (j.queue .metadata).pushed = n ∨ c.bufferSize ≤ (j.queue .metadata).items.length)
    (hstuck : (j.queue stuck).popped = k) (s : Stage) (hs : s.index ≤ stuck.index) :
    (j.queue s).popped = min n (k + (stuck.index - s.index) * (c.bufferSize + 1)) := by
  -- Induction on the stages between `s` and the stuck one: each one back has taken up to
  -- `bufferSize + 1` more, for its successor and the line between.
  induction hd : stuck.index - s.index generalizing s with
  | zero =>
    obtain rfl : s = stuck := Stage.index_inj (by omega)
    have hpopped := hrun.popped_le_pushed s
    omega
  | succ d ih =>
    have hlt := stuck.index_le
    obtain ⟨t, hnext⟩ : ∃ t, s.next = some t := by
      cases s with
      | metadata => exact ⟨_, rfl⟩
      | commit => exact ⟨_, rfl⟩
      | checkpoint => exact absurd hd (by rw [Stage.index]; omega)
    have hindex := Stage.index_next hnext
    have hreach := h.reach hrun hopen hkeeps hnext (fun u hu => hjoin u (by omega)) hle hsupply
    rw [ih t (by omega) (by omega)] at hreach
    rw [hreach, Nat.succ_mul]
    omega

/-- A submitter requests distinct writes that have slots, and the device completes every token but
that of one operation of the `k`-th of them. When nobody can go on, the stage of that operation and
those behind it have processed the writes before that one; each stage in front is a queue and a
write further than the next, as far as there are writes; the first queue has filled up; and the
client was told of just the writes before. This is so without panics, without a shutdown and with
completions by tokens only, in whatever order everything else happens. -/
theorem Run.stalled (hrun : Run c as j es) (hopen : j.closing = .open)
    (hpanic : ∀ a ∈ as, a.isPanic = false) (hreports : ∀ id op, .report id op ∉ as)
    (hsubmits : as.filterMap Action.submitted? = [ids]) (hnodup : ids.Nodup)
    (hids : ∀ id ∈ ids, id < c.maxRequests) (hk : 1 ≤ k) (hid : ids[k - 1]? = some id)
    (hwithholds : Withholds as j id op) (hstill : j.IsStill) :
    (∀ s, op.stage.index ≤ s.index → j.processed s = k - 1) ∧
      (∀ s, s.index < op.stage.index →
        j.processed s = min ids.length (k + (op.stage.index - s.index) * (c.bufferSize + 1))) ∧
      (j.queue .metadata).pushed =
        min ids.length (k + op.stage.index * (c.bufferSize + 1) + c.bufferSize) ∧
      es.filterMap Event.notified? = ids.take (k - 1) := by
  have hkeeps := hrun.pipeline.keeps hopen hpanic hreports
  obtain ⟨left, hpending, horder⟩ := hrun.accepted hopen hsubmits hids
  obtain ⟨hphase, hbehind⟩ := hwithholds.stuck hstill hrun hopen hkeeps hreports hnodup hpending
    horder (List.mem_of_getElem? hid)
  -- The stuck write is the first of all underway, so its number says how many were told before it.
  obtain ⟨rest, hunderway⟩ := underway_eq_cons hphase hbehind
  have hdelivers := hrun.pipeline.delivers.eq_of_alive hkeeps.alive
  rw [hunderway] at hdelivers
  rw [← hdelivers, List.append_assoc, List.cons_append] at horder
  have hnotified : (es.filterMap Event.notified?).length = k - 1 := by
    refine (List.getElem?_inj ?_ hnodup).mp ?_
    · rw [← horder, List.length_append, List.length_cons]
      omega
    · rw [hid, ← horder, List.getElem?_append_right (Nat.le_refl _), Nat.sub_self]
      rfl
  -- What was accepted are all writes, or the first queue is full.
  have haccepted := hrun.tally.accepted
  have hlength : (j.queue .metadata).pushed + left.length = ids.length := by
    rw [haccepted, ← hdelivers, ← horder]
    simp only [List.length_append, List.length_cons]
    omega
  have hsupply : (j.queue .metadata).pushed = ids.length ∨
      c.bufferSize ≤ (j.queue .metadata).items.length := by
    refine (hstill.supply hrun hopen hkeeps hnodup hpending ?_).imp_left fun hleft => ?_
    · rw [← hdelivers, List.append_assoc, List.cons_append, horder]
    · rw [hleft, List.length_nil] at hlength
      omega
  have hprocessed (s : Stage) : j.processed s = (j.workers.get s).processed := by
    simp [Journal.processed, isShutDown, hopen]
  -- The stuck stage and those behind it.
  have hstuck (s : Stage) (hs : op.stage.index ≤ s.index) :
      (j.workers.get s).processed = k - 1 := by
    rw [hstill.processed_eq hrun hkeeps s, hstill.passed_of_idle_after hrun hkeeps, hnotified]
    · exact fun u hu => hbehind u (Nat.lt_of_le_of_lt hs hu)
    · intro i
      rcases Nat.lt_or_eq_of_le hs with hlt | heq
      · simp [(hbehind s hlt).1]
      · rw [← Stage.index_inj heq]
        simp [hphase]
  have hpopped : (j.queue op.stage).popped = k := by
    have halive := hkeeps.alive op.stage
    rw [workers_pipeline, Phase.isOver_awake] at halive
    have hcount := ((hrun.tally.workers op.stage).eq_of_alive halive).1
    rw [hphase, hstuck op.stage (Nat.le_refl _)] at hcount
    exact hcount.trans (Nat.sub_add_cancel hk)
  -- The stages in front of it.
  have hjoin (u : Stage) (hu : u.index < op.stage.index) (i : WriteId) :
      (j.workers.get u).phase ≠ .awaitingJoin i := by
    intro hwait
    rw [(hwithholds.eq_of_awaitingJoin hstill hrun hkeeps hwait).1] at hu
    exact Nat.lt_irrefl _ hu
  have hfront := hstill.popped_of_stuck hrun hopen hkeeps hjoin
    (Nat.le_of_add_right_le (Nat.le_of_eq hlength)) hsupply hpopped
  refine ⟨fun s hs => ?_, fun s hs => ?_, ?_, ?_⟩
  · rw [hprocessed]
    exact hstuck s hs
  · rw [hprocessed, ← hstill.popped_eq hrun hkeeps s (hjoin s hs)]
    exact hfront s (Nat.le_of_lt hs)
  · have hqueued := hrun.tally.queued .metadata
    have hroom : (j.queue .metadata).items.length ≤ c.bufferSize := (hrun.fits .metadata).2
    have hmetadata := hfront .metadata (Nat.zero_le _)
    rw [show Stage.metadata.index = 0 from rfl, Nat.sub_zero] at hmetadata
    omega
  · rw [← horder, ← hnotified, List.take_left]

end

/-- A submitter requests six writes with room for one in each queue. The device withholds the token
of the second stage for the second write. The third write waits in the queue of that stage, the
fourth has passed the first stage and waits for room, the fifth waits in the first queue, and the
sixth for room there. -/
def gridlock : List Action :=
  let request := List.replicate 3 (Action.act (.caller 0))
  .submit [0, 1, 2, 3, 4, 5] :: request ++ Stage.all.flatMap (passage 0 1) ++
    request ++ passage 1 1 .metadata ++ List.replicate 5 (.act (.worker .commit)) ++
      request ++ passage 2 1 .metadata ++ request ++ (passage 3 1 .metadata).dropLast ++
        request ++ [.act (.caller 0), .act (.caller 0), .act (.worker .checkpoint)]

/-- In `gridlock` one of six writes is done, the first stage has processed four, and five were
accepted. -/
theorem stalled_of_gridlock :
    ∃ j es, Run { bufferSize := 1, maxRequests := 6 } gridlock j es ∧ j.IsStill ∧
      Withholds gridlock j 1 .journalTxe ∧ j.processed .checkpoint = 1 ∧ j.processed .commit = 1 ∧
        j.processed .metadata = 4 ∧ (j.queue .metadata).pushed = 5 ∧
          es.filterMap Event.notified? = [0] := by
  have htrace : (trace? { bufferSize := 1, maxRequests := 6 } gridlock).map (fun r =>
      ((r.1.closing, r.1.outstanding),
        (Stage.all.all fun s =>
          (r.1.step (.act (.worker s))).isNone && (r.1.queues.get s).owed.isEmpty),
        (List.range r.1.callers.length).all fun k => (r.1.step (.act (.caller k))).isNone)) =
      some ((.open, [⟨1, .journalTxe, 1⟩]), true, true) := by decide +kernel
  obtain ⟨⟨j, es⟩, htrace, heq⟩ := Option.map_eq_some_iff.mp htrace
  simp only [Prod.mk.injEq] at heq
  obtain ⟨⟨hopen, houtstanding⟩, hstages, hcallers⟩ := heq
  have hstill : j.IsStill :=
    isStill_of_all (fun s => List.all_eq_true.mp hstages s (Stage.mem_all s)) hcallers
  have hrun := Run.of_trace? htrace
  have hall : gridlock.all (fun a => match a with
      | .complete t => t.writeId = 1 → t.operation ≠ .journalTxe
      | .drop _ | .report .. => false
      | _ => true) = true := by decide
  have hwithholds : Withholds gridlock j 1 .journalTxe := by
    refine ⟨?_, fun t ht => ?_, fun t ht => ?_⟩
    · rw [houtstanding]
      simp
    · have hother := of_decide_eq_true (List.all_eq_true.mp hall _ ht)
      exact fun ⟨hid, hop⟩ => hother hid hop
    · exact nomatch List.all_eq_true.mp hall _ ht
  obtain ⟨hdry, hfull, hpushed, hnotified⟩ := Run.stalled (k := 2) hrun hopen (by decide)
    (fun _ _ hmem => nomatch List.all_eq_true.mp hall _ hmem)
    (show gridlock.filterMap Action.submitted? = [[0, 1, 2, 3, 4, 5]] by decide) (by decide)
    (by decide) (by decide) rfl hwithholds hstill
  exact ⟨j, es, hrun, hstill, hwithholds, hdry .checkpoint (by decide), hdry .commit (by decide),
    hfull .metadata (by decide), hpushed, hnotified⟩

end Journal

end WriteAhead
