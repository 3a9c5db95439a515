import Mathlib.Data.List.Nodup
import WriteAhead.Proofs.Device.Issues

/-!
# The delays of issues

Delays are registered in one list for all operations. An issue takes the first one for its
operation, and the last one of the list comes into its place. So every delay is used once, and the
latency only after all of them; but a delay that is moved forward may pass one that was registered
for the same operation before it. As long as none does, the delays are used as they were registered.

## Key results

- `takeDelay_taken`: how a delay is taken
- `Draws.take`: each delay registered for an operation is used once, and then the latency
- `draws_delays`: what issues are delayed by over a whole run, and what becomes of them then
- `delay_out_of_turn`: a delay that is used before one that was registered before it
-/

namespace WriteAhead.Device

/-! ## Taking a delay -/

/-- The delays registered for an operation. -/
def registered (op : Operation) (delays : List (Operation × Span)) : List Span :=
  (delays.filter (·.1 = op)).map (·.2)

/-- The delays `registered` in two lists follow each other. -/
theorem registered_append (op : Operation) (delays delays' : List (Operation × Span)) :
    registered op (delays ++ delays') = registered op delays ++ registered op delays' := by
  rw [registered, List.filter_append, List.map_append, registered, registered]

/-- The delays `registered` in a list begin with that of its first entry, if it is of the
operation. -/
theorem registered_cons (op : Operation) (x : Operation × Span) (delays : List (Operation × Span)) :
    registered op (x :: delays) = registered op [x] ++ registered op delays :=
  registered_append op [x] delays

theorem registered_singleton (op op' : Operation) (delay : Span) :
    registered op [(op', delay)] = if op' = op then [delay] else [] := by
  rw [registered, List.filter_singleton]
  split <;> simp_all

/-- No delay is `registered` for an operation of which there is no entry. -/
theorem registered_eq_nil {op : Operation} {delays : List (Operation × Span)} :
    registered op delays = [] ↔ ∀ x ∈ delays, x.1 ≠ op := by
  simp [registered]

/-- The last entry comes into the place of the one that goes: `swapRemove` does not shift what is
behind. -/
theorem swapRemove_append {α : Type} (before after : List α) (x : α) :
    swapRemove (before ++ x :: after) before.length =
      before ++ (after.getLast?.toList ++ after.dropLast) := by
  rcases after.eq_nil_or_concat' with rfl | ⟨mid, y, rfl⟩
  · simp [swapRemove]
  · have hlast : (before ++ x :: (mid ++ [y])).getLast? = some y := by
      rw [← List.cons_append, ← List.append_assoc, List.getLast?_concat]
    have hset : (before ++ x :: (mid ++ [y])).set before.length y =
        (before ++ y :: mid) ++ [y] := by simp
    rw [swapRemove, hlast]
    simp only [hset, List.dropLast_concat, List.getLast?_concat]
    rfl

/-- A delay is taken for an operation, if one is registered: the first one goes, and the last one of
all comes into its place. -/
inductive Taken (op : Operation) :
    List (Operation × Span) → Option Span → List (Operation × Span) → Prop where
  | absent {delays : List (Operation × Span)} (h : registered op delays = []) :
      Taken op delays none delays
  | first {delay : Span} {before after : List (Operation × Span)} (h : registered op before = []) :
      Taken op (before ++ (op, delay) :: after) (some delay)
        (before ++ (after.getLast?.toList ++ after.dropLast))

/-- What `takeDelay` takes is the first delay of the operation, and what it leaves is described by
`Taken`. -/
theorem takeDelay_taken (d : Device) (op : Operation) :
    Taken op d.delays (d.takeDelay op).1 (d.takeDelay op).2.delays := by
  rw [takeDelay]
  cases hfind : d.delays.findIdx? (·.1 = op) with
  | none => exact .absent (registered_eq_nil.mpr (by simpa using hfind))
  | some i =>
    obtain ⟨hi, hop, hbefore⟩ := List.findIdx?_eq_some_iff_getElem.mp hfind
    -- The first entry of `op` splits the list. Taking it puts the last entry in its place.
    have hsplit : d.delays = d.delays.take i ++ (op, d.delays[i].2) :: d.delays.drop (i + 1) := by
      have hentry : (op, d.delays[i].2) = d.delays[i] := Prod.ext (of_decide_eq_true hop).symm rfl
      rw [hentry, List.getElem_cons_drop, List.take_append_drop]
    have hlength : (d.delays.take i).length = i := List.length_take_of_le (Nat.le_of_lt hi)
    have hrest := swapRemove_append (d.delays.take i) (d.delays.drop (i + 1)) (op, d.delays[i].2)
    rw [← hsplit, hlength] at hrest
    have htaken : Taken op (d.delays.take i ++ (op, d.delays[i].2) :: d.delays.drop (i + 1))
        (some d.delays[i].2) _ := .first <|
      registered_eq_nil.mpr fun x (hx : x ∈ d.delays.take i) => by
        obtain ⟨j, hj, rfl⟩ := List.mem_take_iff_getElem.mp hx
        simpa using hbefore j (by omega)
    rw [← hsplit, ← hrest] at htaken
    simpa [List.getElem?_eq_getElem hi] using htaken

/-- Whether the delay that comes into the place of the one that is taken passes another one for its
operation. -/
def passes (op : Operation) (delays : List (Operation × Span)) : Bool :=
  let after := (delays.dropWhile (·.1 ≠ op)).tail
  after.getLast?.any fun x => after.dropLast.any (·.1 = x.1)

/-- The delay that is taken is passed (`passes`) by a later one of the same operation exactly if the
last entry is of an operation that stands between the two. -/
theorem passes_append {op : Operation} {delay : Span} {before after : List (Operation × Span)}
    (h : registered op before = []) : passes op (before ++ (op, delay) :: after) =
      after.getLast?.any fun x => after.dropLast.any (·.1 = x.1) := by
  rw [passes, List.dropWhile_append_of_pos (by simpa using registered_eq_nil.mp h),
    List.dropWhile_cons_of_neg (by simp), List.tail_cons]

namespace Taken

variable {op : Operation} {delays rest : List (Operation × Span)} {delay? : Option Span}

/-- What is `Taken` was registered, and so was what is left. -/
theorem mem (h : Taken op delays delay? rest) :
    (∀ delay, delay? = some delay → (op, delay) ∈ delays) ∧ ∀ x ∈ rest, x ∈ delays := by
  cases h with
  | absent => exact ⟨nofun, fun _ hx => hx⟩
  | @first delay before after h =>
    refine ⟨?_, fun x hx => ?_⟩
    · rintro _ ⟨⟩
      exact List.mem_append_right before List.mem_cons_self
    · rcases after.eq_nil_or_concat' with rfl | ⟨mid, y, rfl⟩
      · exact List.mem_append_left _ (by simpa using hx)
      · simp at hx ⊢
        tauto

/-- The `registered` delays of every operation are left, apart from the one that is taken. -/
theorem perm (h : Taken op delays delay? rest) (op' : Operation) :
    ((if op = op' then delay?.toList else []) ++ registered op' rest).Perm
      (registered op' delays) := by
  cases h with
  | absent h => simp
  | @first delay before after h =>
    have hafter : (registered op' (after.getLast?.toList ++ after.dropLast)).Perm
        (registered op' after) := by
      refine List.Perm.map _ (List.Perm.filter _ ?_)
      rcases after.eq_nil_or_concat' with rfl | ⟨mid, y, rfl⟩
      · exact .refl _
      · simpa using (List.perm_append_singleton y mid).symm
    rw [Option.toList_some, ← registered_singleton, registered_append op' before,
      registered_append op' before, registered_cons op' (op, delay) after]
    exact (List.perm_append_comm_assoc ..).trans ((hafter.append_left _).append_left _)

/-- If none is passed (`passes`), the delays are left in order. -/
theorem eq_of_not_passes (h : Taken op delays delay? rest) (hpasses : passes op delays = false)
    (op' : Operation) : (if op = op' then delay?.toList else []) ++ registered op' rest =
      registered op' delays := by
  cases h with
  | absent h => simp
  | @first delay before after h =>
    rw [passes_append h] at hpasses
    have hafter : registered op' (after.getLast?.toList ++ after.dropLast) =
        registered op' after := by
      rcases after.eq_nil_or_concat' with rfl | ⟨mid, y, rfl⟩
      · rfl
      · -- The last entry moves before `mid`. Its own operation keeps its order only if `mid` has
        -- none of it.
        have hmid : ∀ x ∈ mid, x.1 ≠ y.1 := by simpa using hpasses
        rw [List.getLast?_concat, List.dropLast_concat, Option.toList_some, registered_append,
          registered_append]
        by_cases hy : y.1 = op'
        · have hnone : registered op' mid = [] := registered_eq_nil.mpr (hy ▸ hmid)
          rw [hnone, List.append_nil, List.nil_append]
        · have hnone : registered op' [y] = [] := registered_eq_nil.mpr (by simpa using hy)
          rw [hnone, List.append_nil, List.nil_append]
    rw [registered_append op' before, hafter, registered_append op' before,
      registered_cons op' (op, delay) after, registered_singleton]
    split
    · rename_i heq
      rw [← heq, h]
      rfl
    · rfl

end Taken

/-! ## What becomes of an issue that is not on hold -/

/-- What an issue comes to if its token is not on hold. -/
inductive Course where
  /-- The issue completes the token. -/
  | atOnce
  /-- The token is put on the timer. -/
  | later (delay : Span)
  deriving DecidableEq

/-- What an issue comes to that is delayed for so long. -/
def Course.of (delay : Span) : Course := if delay.isZero then .atOnce else .later delay

/-- What the issues of an operation came to. -/
def coursesOf (op : Operation) (courses : List (Token × Course)) : List Course :=
  (courses.filter (·.1.operation = op)).map (·.2)

/-- A device that delays anything has a timer. -/
structure Timed (d : Device) : Prop where
  latency : d.latency.isZero = false → d.timer?.isSome = true
  delays : ∀ x ∈ d.delays, x.2.isZero = false → d.timer?.isSome = true

/-- A device that is made with a delay, or a latency, other than zero (`isZero`) has a timer for
it. -/
theorem timed_create (latency : Span) (delays : List (Operation × Span))
    (holds : List (Operation × WriteId)) : (create latency delays holds).Timed := by
  have htimer (h : (!latency.isZero || delays.any (!·.2.isZero)) = true) :
      (create latency delays holds).timer?.isSome = true := by
    simp only [create, h, if_true, Option.isSome_some]
  refine ⟨fun h => htimer ?_, fun x hx h => htimer ?_⟩
  · simp [show latency.isZero = false from h]
  · exact Bool.or_eq_true_iff.mpr (.inr (List.any_eq_true.mpr ⟨x, hx, by simp [h]⟩))

/-- If the delay that an issue gets from `takeDelay` is not zero, there is a timer for it. -/
theorem Timed.isSome_of_takeDelay {d : Device} (hd : d.Timed) {op : Operation}
    (h : ((d.takeDelay op).1.getD d.latency).isZero = false) : d.timer?.isSome = true := by
  have htaken := (d.takeDelay_taken op).mem.1
  cases hdelay : (d.takeDelay op).1 with
  | none => exact hd.latency (by simpa [hdelay] using h)
  | some delay => exact hd.delays _ (htaken delay hdelay) (by simpa [hdelay] using h)

/-- What the issues of an operation came to after some of the delays that are registered for it have
been used: each of those was used once, and then the latency. -/
structure Draws (op : Operation) (latency : Span) (delays left : List (Operation × Span))
    (courses : List (Token × Course)) (used : List Span) (n : Nat) : Prop where
  perm : (used ++ registered op left).Perm (registered op delays)
  courses : coursesOf op courses = (used ++ List.replicate n latency).map Course.of
  usedUp : n ≠ 0 → registered op left = []

namespace Draws

variable {op : Operation} {latency : Span} {delays left rest : List (Operation × Span)}
  {courses : List (Token × Course)} {used : List Span} {n : Nat} {t : Token} {delay? : Option Span}

/-- The next issue draws the next delay (`Draws`). -/
theorem take (h : Draws op latency delays left courses used n)
    (htaken : Taken t.operation left delay? rest) : ∃ used' n',
      Draws op latency delays rest (courses ++ [(t, Course.of (delay?.getD latency))]) used' n' ∧
        (passes t.operation left = false → used ++ registered op left = registered op delays →
          used' ++ registered op rest = registered op delays) := by
  have hperm := htaken.perm op
  have heq := fun hpasses => htaken.eq_of_not_passes hpasses op
  by_cases hop : t.operation = op
  · have hcourses (c : Course) :
        coursesOf op (courses ++ [(t, c)]) = coursesOf op courses ++ [c] := by
      simp [coursesOf, hop]
    rw [if_pos hop] at hperm heq
    cases delay? with
    | none =>
      -- No delay is registered any more.
      rw [Option.toList_none, List.nil_append] at hperm heq
      have hnone : registered op left = [] := by
        cases htaken with
        | absent h => exact hop ▸ h
      have hrest : registered op rest = [] := (hnone ▸ hperm).eq_nil
      refine ⟨used, n + 1, ⟨?_, ?_, fun _ => hrest⟩, fun _ => ?_⟩
      · rw [hrest, ← hnone]
        exact h.perm
      · rw [hcourses, h.courses, List.replicate_succ', ← List.append_assoc]
        simp
      · rw [hnone, hrest]
        exact fun h => h
    | some delay =>
      rw [Option.toList_some] at hperm heq
      obtain rfl : n = 0 := by
        by_contra hn
        exact List.cons_ne_nil _ _ ((h.usedUp hn ▸ hperm).eq_nil)
      refine ⟨used ++ [delay], 0, ⟨?_, ?_, fun hn => absurd rfl hn⟩, fun hpasses hused => ?_⟩
      · rw [List.append_assoc]
        exact (hperm.append_left used).trans h.perm
      · rw [hcourses, h.courses]
        simp
      · rw [List.append_assoc, heq hpasses, hused]
  · have hcourses (c : Course) : coursesOf op (courses ++ [(t, c)]) = coursesOf op courses := by
      simp [coursesOf, hop]
    rw [if_neg hop, List.nil_append] at hperm heq
    refine ⟨used, n, ⟨(hperm.append_left used).trans h.perm, ?_, fun hn => ?_⟩,
      fun hpasses hused => ?_⟩
    · rw [hcourses, h.courses]
    · exact (h.usedUp hn ▸ hperm).eq_nil
    · rw [heq hpasses, hused]

/-- If the delays were used in the order in which they are `registered`, the one that an issue got
has the issue's number. -/
theorem eq_of_getElem? (h : Draws op latency delays left courses used n)
    (hused : used ++ registered op left = registered op delays) {i : Nat} {c : Course}
    (hc : (coursesOf op courses)[i]? = some c) :
    c = Course.of ((registered op delays)[i]?.getD latency) := by
  rw [h.courses, List.getElem?_map] at hc
  obtain ⟨delay, hdelay, rfl⟩ := Option.map_eq_some_iff.mp hc
  rw [← hused]
  rcases Nat.lt_or_ge i used.length with hi | hi
  · rw [List.getElem?_append_left hi] at hdelay ⊢
    rw [hdelay, Option.getD_some]
  · rw [List.getElem?_append_right hi, List.getElem?_replicate] at hdelay
    obtain ⟨hlt, heq⟩ := Option.ite_none_right_eq_some.mp hdelay
    obtain rfl := Option.some.inj heq
    have hleft := h.usedUp (by omega)
    rw [hleft, List.append_nil, List.getElem?_eq_none hi, Option.getD_none]

end Draws

/-- What a call is about to do with the token that it has issued. -/
def Call.course? : Call → Option (Token × Course)
  | .scheduling t delay => some (t, .later delay)
  | .finishing t _ _ => some (t, .atOnce)
  | _ => none

/-- The token of a call that has still to choose its delay. -/
def Call.untimed : Call → List Token
  | .timing t => [t]
  | _ => []

theorem ofIssue_untimed : OfIssue Call.untimed := by
  intro c hc
  cases c <;> first | rfl | exact nomatch hc

namespace Life

/-- The token of the issue that chooses its delay by an action. -/
def timing? (l : Life) : Action → Option Token
  | .step th =>
    match l.device.call? th with
    | some (.timing t) => some t
    | _ => none
  | _ => none

/-- What an issue that chooses its delay by an action comes to. -/
def course? (l : Life) : Action → Option (Token × Course)
  | .step th =>
    (l.timing? (.step th)).bind fun _ =>
      ((l.step (.step th)).bind (·.1.device.call? th)).bind Call.course?
  | _ => none

/-- The token of the issue that by an action takes a delay, if that brings another delay before one
that was registered earlier. -/
def passing? (l : Life) (a : Action) : Option Token :=
  (l.timing? a).filter fun t => passes t.operation l.device.delays

variable {l l' s : Life} {a : Action} {as : List Action} {hs hs' : List Happening}

/-- Only an issue that chooses its delay does anything with the `delays`. -/
theorem Change.delays_eq (h : Change l a l') (ha : l.timing? a = none) :
    l'.device.delays = l.device.delays := by
  cases h with
  | @held op id =>
    obtain ⟨holds, heq⟩ := l.device.hold_eq op id
    rw [heq]
  | fired hfire =>
    obtain ⟨timer, t, others, -, -, -, rfl⟩ := fire_eq_some hfire
    rfl
  | issued | releasing | passed | dropped => rfl
  | advanced h =>
    rw [timing?, h.call?_eq] at ha
    obtain ⟨hsection, -, -⟩ := h
    cases hsection <;> first | rfl | exact nomatch ha

/-- What a device has been made for stays: its `latency` is never changed. -/
theorem Change.latency_eq (h : Change l a l') : l'.device.latency = l.device.latency ∧
    l'.device.timer?.isSome = l.device.timer?.isSome := by
  cases h with
  | @held op id =>
    obtain ⟨holds, heq⟩ := l.device.hold_eq op id
    rw [heq]
    exact ⟨rfl, rfl⟩
  | fired hfire =>
    obtain ⟨timer, t, others, htimer, -, -, rfl⟩ := fire_eq_some hfire
    exact ⟨rfl, by rw [htimer]; rfl⟩
  | issued | releasing | passed => exact ⟨rfl, rfl⟩
  | dropped => exact ⟨rfl, Option.isSome_map⟩
  | advanced h =>
    obtain ⟨hsection, -, -⟩ := h
    cases hsection with
    | scheduled => exact ⟨rfl, Option.isSome_map⟩
    | _ => exact ⟨rfl, rfl⟩

/-- What an issue that chooses its delay comes to (`course?`) is seen from where its call goes
on. -/
theorem course?_of_advance {th : Thread} {t : Token} {c'? : Option Call} {d' : Device}
    (hstep : l.step (.step th) = some ({ l with device := d' }, hs))
    (h : Advance l.device l.now th (.timing t) c'? d') :
    l.course? (.step th) = c'?.bind Call.course? := by
  have htiming : l.timing? (.step th) = some t := by rw [timing?, h.call?_eq]
  rw [course?, htiming, hstep, Option.bind_some, Option.bind_some, h.call?_self]

/-- An issue that chooses its delay takes the `Course` that the delay says: at once if it is zero,
and on the timer otherwise. -/
theorem course?_of_timed {th : Thread} {t : Token} {c'? : Option Call} {d' : Device}
    (htimed : l.device.Timed) (hstep : l.step (.step th) = some ({ l with device := d' }, hs))
    (h : Advance l.device l.now th (.timing t) c'? d') : l.course? (.step th) =
      some (t, Course.of ((l.device.takeDelay t.operation).1.getD l.device.latency)) := by
  rw [course?_of_advance hstep h]
  obtain ⟨hsection, -, -⟩ := h
  cases hsection with
  | undelayed htake hzero =>
    have hzero : ((l.device.takeDelay t.operation).1.getD l.device.latency).isZero = true := by
      by_contra hne
      rw [Bool.not_eq_true] at hne
      have hsome := htimed.isSome_of_takeDelay hne
      rw [← Option.not_isNone, hzero.resolve_left (by rw [hne]; exact nofun)] at hsome
      exact nomatch hsome
    simp [Call.course?, Course.of, hzero]
  | delayed htake hzero => simp [Call.course?, Course.of, hzero]

/-- Where `timing?` finds no issue that chooses its delay, no issue takes its course. -/
theorem course?_eq_none (ha : l.timing? a = none) : l.course? a = none := by
  cases a with
  | step th => rw [course?, ha, Option.bind_none]
  | issue | hold | release | fire | pass | drop => rfl

/-- Only a thread that has still to choose a delay does so (`timing?`). -/
theorem timing?_eq_some {t : Token} (h : l.timing? a = some t) :
    ∃ th, a = .step th ∧ l.device.call? th = some (.timing t) := by
  cases a with
  | step th =>
    rw [timing?] at h
    split at h
    · rename_i hcall
      exact ⟨th, rfl, Option.some.inj h ▸ hcall⟩
    · exact nomatch h
  | issue | hold | release | fire | pass | drop => exact nomatch h

/-- A call that does not choose a delay is not seen by `timing?`. -/
theorem timing?_eq_none {th : Thread} {c : Call} (h : l.device.call? th = some c)
    (hc : ∀ t, c ≠ .timing t) : l.timing? (.step th) = none := by
  cases htiming : l.timing? (.step th) with
  | none => rfl
  | some t =>
    obtain ⟨_, ⟨⟩, hcall⟩ := timing?_eq_some htiming
    exact absurd (Option.some.inj (h.symm.trans hcall)) (hc t)

/-- Only a section of an issue (`IsOfIssue`) chooses a delay. -/
theorem timing?_eq_none_of_not_isOfIssue (ha : ¬ a.IsOfIssue l) : l.timing? a = none := by
  cases htiming : l.timing? a with
  | none => rfl
  | some t =>
    obtain ⟨th, rfl, hcall⟩ := timing?_eq_some htiming
    exact absurd ⟨_, hcall, nofun⟩ ha

/-! ## Whole runs -/

/-- The delays of a device, as far as they have been used. -/
structure Drawn (l : Life) (latency : Span) (delays : List (Operation × Span))
    (courses : List (Token × Course)) (passing : List Token) : Prop where
  timed : l.device.Timed
  latency_eq : l.device.latency = latency
  draws : ∀ op, ∃ used n, Draws op latency delays l.device.delays courses used n ∧
    (passing = [] → used ++ registered op l.device.delays = registered op delays)

variable {latency : Span} {delays : List (Operation × Span)} {holds : List (Operation × WriteId)}
  {courses : List (Token × Course)} {passing : List Token}

/-- In a new device all delays are left and none is used (`Drawn`). -/
theorem drawn_create (latency : Span) (delays : List (Operation × Span))
    (holds : List (Operation × WriteId)) :
    Drawn (create latency delays holds) latency delays [] [] :=
  ⟨timed_create latency delays holds, rfl, fun _ =>
    ⟨[], 0, ⟨.refl _, rfl, fun hn => absurd rfl hn⟩, fun _ => rfl⟩⟩

/-- After any `Change` the delays that were used and those that are left are what was registered. -/
theorem Drawn.change (h : Drawn l latency delays courses passing)
    (hstep : l.step a = some (l', hs)) (hchange : Change l a l') :
    Drawn l' latency delays (courses ++ (l.course? a).toList)
      (passing ++ (l.passing? a).toList) := by
  obtain ⟨hlatency, htimer⟩ := hchange.latency_eq
  have htimed (hdelays : ∀ x ∈ l'.device.delays, x ∈ l.device.delays) : l'.device.Timed :=
    ⟨fun hzero => htimer.trans (h.timed.latency (hlatency ▸ hzero)),
      fun x hx hzero => htimer.trans (h.timed.delays x (hdelays x hx) hzero)⟩
  -- Only a call that comes to its delay takes one from the list.
  cases htiming : l.timing? a with
  | none =>
    have hdelays := hchange.delays_eq htiming
    rw [course?_eq_none htiming, passing?, htiming, Option.filter_none, Option.toList_none,
      Option.toList_none, List.append_nil, List.append_nil]
    exact ⟨htimed fun x hx => hdelays ▸ hx, hlatency.trans h.latency_eq, hdelays ▸ h.draws⟩
  | some t =>
    obtain ⟨th, rfl, hcall⟩ := timing?_eq_some htiming
    cases hchange with
    | @advanced _ c c'? d' hadvance =>
      obtain rfl := Option.some.inj (hcall.symm.trans hadvance.call?_eq)
      have htaken := l.device.takeDelay_taken t.operation
      have hdelays : d'.delays = (l.device.takeDelay t.operation).2.delays := by
        obtain ⟨hsection, -, -⟩ := hadvance
        cases hsection with
        | undelayed htake | delayed htake => rw [htake]
      rw [course?_of_timed h.timed hstep hadvance, passing?, htiming, h.latency_eq]
      refine ⟨htimed ?_, hlatency.trans h.latency_eq, fun op => ?_⟩
      · rw [hdelays]
        exact htaken.mem.2
      · obtain ⟨used, n, hdraws, hused⟩ := h.draws op
        obtain ⟨used', n', hdraws', hused'⟩ := hdraws.take htaken
        rw [hdelays]
        refine ⟨used', n', hdraws', fun hnil => ?_⟩
        obtain ⟨hpassing, hpasses⟩ := List.append_eq_nil_iff.mp hnil
        exact hused' (by simpa using hpasses) (hused hpassing)

/-- The delays that were used and those that are left are those of the configuration (`Drawn`),
along every run. -/
theorem drawn_of_run? (h : (create latency delays holds).run? as = some (l, hs)) :
    Drawn l latency delays (seen course? (create latency delays holds) as)
      (seen passing? (create latency delays holds) as) := by
  refine run?_induction (P := fun as l => Drawn l latency delays
    (seen course? (create latency delays holds) as)
    (seen passing? (create latency delays holds) as))
    (sound_create latency delays holds) (drawn_create latency delays holds) ?_ h
  intro as l hs a l' hs' hrun hd hdrawn hstep hchange
  rw [seen_concat _ hrun, seen_concat _ hrun]
  exact hdrawn.change hstep hchange

/-- What becomes of an issue that has chosen its delay, when it goes on. -/
structure Ends (l : Life) : Prop where
  /-- The token is put on the timer with its delay, and nothing else happens to it. -/
  later : ∀ th t delay, l.device.call? th = some (.scheduling t delay) → ∃ timer l',
    l.device.timer? = some timer ∧ l.step (.step th) = some (l', []) ∧
      l'.device.timer? = some (timer.schedule (l.now + delay.micros) t) ∧
        l'.device.call? th = none
  /-- The token is noted as completed, and then given back. -/
  atOnce : ∀ th t, l.device.call? th = some (.finishing t [] false) → ∃ l',
    l.step (.step th) = some (l', [.completed t]) ∧
      l'.device.call? th = some (.reporting t [] false)
  given : ∀ th t, l.device.call? th = some (.reporting t [] false) → ∃ l',
    l.step (.step th) = some (l', [.reported t]) ∧ l'.device.call? th = none

/-- On a clock without an end an issue whose delay is chosen ends as `Ends` says: its token is put
on the timer, or noted and given back. -/
theorem ends_of_sound (hd : l.device.Sound) (hclock : l.device.last? = none) : Ends l := by
  have hkept (th : Thread) : l.device.losing? l.now th = none := losing?_of_last? hclock l.now th
  -- A call from its delay on can only be scheduled, completed and reported.
  refine ⟨fun th t delay hcall => ?_, fun th t hcall => ?_, fun th t hcall => ?_⟩
  · have hsome := hd.timed th t delay (mem_calls_of_call? hcall)
    obtain ⟨timer, htimer⟩ := Option.isSome_iff_exists.mp hsome
    have hstep : l.step (.step th) = some ({ l with
        device := Device.leave { l.device with
          timer? := l.device.timer?.map (·.schedule (l.now + delay.micros) t) } th }, []) := by
      rw [Life.step, hkept, Device.step, hcall, Option.map_some]
      dsimp only
      rw [if_pos (names_of_losing? (hkept th) hcall)]
      rfl
    exact ⟨timer, _, htimer, hstep, by rw [htimer]; rfl, by simp [call?, leave]⟩
  · have hstep : l.step (.step th) = some ({ l with
        device := (l.device.note .completed t).goTo th (.reporting t [] false) },
        [.completed t]) := by
      rw [Life.step, hkept, Device.step, hcall]
      rfl
    have hd' : (l.device.note .completed t).Sound := hd.of_calls_eq rfl rfl
    exact ⟨_, hstep, hd'.call?_goTo hcall _⟩
  · have hstep : l.step (.step th) = some ({ l with device := l.device.leave th },
        [.reported t]) := by
      rw [Life.step, hkept, Device.step, hcall]
      rfl
    exact ⟨_, hstep, by simp [call?, leave]⟩

/-- The tokens that are not on hold choose their delays one after the other; in between they are in
`Call.untimed`. -/
theorem passage_untimed :
    Passage Call.untimed unheld? (fun l a => (l.course? a).map (·.1)) where
  ofIssue := ofIssue_untimed
  begins l th t := ⟨rfl, rfl⟩
  goesOn l th c c'? d' hs _ _ hstep hadvance hc := by
    have hcall := hadvance.call?_eq
    have hnone (hc : ∀ t, c ≠ .timing t) : l.course? (.step th) = none :=
      course?_eq_none (timing?_eq_none hcall hc)
    have hsection := hadvance
    obtain ⟨hsection, -, -⟩ := hsection
    cases hsection with
    | held hmem | unheld hmem =>
      rw [hnone (by simp)]
      simp [unheld?, tested?, hcall, hmem, Call.untimed]
    | undelayed | delayed =>
      rw [course?_of_advance hstep hadvance]
      simp [unheld?, tested?, hcall, Call.untimed, Call.course?]
    | parked | scheduled | lost =>
      rw [hnone (by simp)]
      simp [unheld?, tested?, hcall, Call.untimed]
    | noted | given | lifted | taken => exact absurd rfl hc
  quiet l a ha := by
    rw [unheld?, (passage_tested.quiet l a ha).2,
      course?_eq_none (timing?_eq_none_of_not_isOfIssue ha)]
    exact ⟨rfl, rfl⟩

/-- Each delay registered for an operation is used once, and then the `latency`. -/
theorem draws_of_run? (h : (create latency delays holds).run? as = some (l, hs)) (op : Operation) :
    ∃ used n, Draws op latency delays l.device.delays
      (seen course? (create latency delays holds) as) used n := by
  obtain ⟨used, n, hdraws, -⟩ := (drawn_of_run? h).draws op
  exact ⟨used, n, hdraws⟩

/-- If issues do not overlap, the tokens that are not on hold take their `course?` in the order of
the issues. -/
theorem IssuesApart.map_course?
    (hapart : IssuesApart (create latency delays holds) as)
    (h : (create latency delays holds).run? as = some (l, hs)) :
    (seen course? (create latency delays holds) as).map (·.1) ++ l.device.inHands Call.untimed =
      seen unheld? (create latency delays holds) as := by
  rw [← seen_map]
  exact passage_untimed.of_run? (sound_create latency delays holds) rfl rfl h hapart

/-- What issues are delayed by over a whole run. -/
structure DrawsDelays (s l : Life) (as : List Action) (latency : Span)
    (delays : List (Operation × Span)) : Prop where
  /-- Each delay registered for an operation is used once, and then the latency. -/
  draws : ∀ op, ∃ used n, Draws op latency delays l.device.delays (seen course? s as) used n
  /-- The delays are used as they were registered, if there is one at most for the operation, or if
  none ever passes another. -/
  inTurn : ∀ op, (registered op delays).length ≤ 1 ∨ seen passing? s as = [] →
    ∀ (i : Nat) (c : Course), (coursesOf op (seen course? s as))[i]? = some c →
      c = Course.of ((registered op delays)[i]?.getD latency)
  ends : Ends l
  /-- If issues do not overlap, the tokens that are not on hold choose in the order of the
  issues. -/
  issued : IssuesApart s as →
    (seen course? s as).map (·.1) ++ l.device.inHands Call.untimed = seen unheld? s as ∧
      (seen unheld? s as).Sublist (as.filterMap Action.issued?)

/-- Whatever is done with a device, an issue that is not on hold is delayed by one of the delays
that are registered for its operation, and by the latency if none is left. It is put on the timer
with that delay, or completes the token if that is no delay (`DrawsDelays`). -/
theorem draws_delays (h : (create latency delays holds).run? as = some (l, hs)) :
    DrawsDelays (create latency delays holds) l as latency delays := by
  have hsound := sound_create latency delays holds
  refine ⟨draws_of_run? h, fun op hturn i c hc => ?_,
    ends_of_sound (flow_of_run? hsound h).1 (last?_of_run? h),
    fun hapart => ⟨hapart.map_course? h, hapart.unheld_sublist hsound rfl rfl h⟩⟩
  obtain ⟨used, n, hdraws, hused⟩ := (drawn_of_run? h).draws op
  refine hdraws.eq_of_getElem? ?_ hc
  rcases hturn with hsingle | hpassing
  · -- A list of one delay has no other order.
    have hperm := hdraws.perm
    match hregistered : registered op delays with
    | [] => exact (hregistered ▸ hperm).eq_nil
    | [delay] => exact List.perm_singleton.mp (hregistered ▸ hperm)
    | _ :: _ :: _ => simp [hregistered] at hsingle
  · exact hused hpassing

/-- Two delays for one operation, and then one for another. -/
def pairFirst : List (Operation × Span) :=
  [(.writeData, ⟨7⟩), (.writeData, ⟨0⟩), (.journalTxb, ⟨0⟩)]

/-- Three issues of one operation, one after the other. -/
def thrice : List Action :=
  let issuer := Thread.operator 0
  [.issue issuer ⟨0, .writeData, 0⟩, .step issuer, .step issuer, .step issuer,
    .issue issuer ⟨1, .writeData, 1⟩, .step issuer, .step issuer, .step issuer, .step issuer,
    .issue issuer ⟨2, .writeData, 2⟩, .step issuer, .step issuer]

/-- In `thrice` the two delays are used, and then the latency. -/
theorem draws_delays_of_thrice : ∃ l hs,
    (create ⟨5⟩ pairFirst []).run? thrice = some (l, hs) ∧
      DrawsDelays (create ⟨5⟩ pairFirst []) l thrice ⟨5⟩ pairFirst ∧
      seen passing? (create ⟨5⟩ pairFirst []) thrice = [] ∧
      IssuesApart (create ⟨5⟩ pairFirst []) thrice ∧
      coursesOf .writeData (seen course? (create ⟨5⟩ pairFirst []) thrice) =
        [.later ⟨7⟩, .atOnce, .later ⟨5⟩] := by
  have hrun : ((create ⟨5⟩ pairFirst []).run? thrice).isSome = true := by decide +kernel
  obtain ⟨⟨l, hs⟩, hrun⟩ := Option.isSome_iff_exists.mp hrun
  exact ⟨l, hs, hrun, draws_delays hrun, by decide +kernel, by decide +kernel, by decide +kernel⟩

/-- Two delays for one operation, none and an hour, after one for another. -/
def pairLast : List (Operation × Span) :=
  [(.journalTxb, ⟨0⟩), (.writeData, ⟨0⟩), (.writeData, ⟨3600000000⟩)]

/-- An issue of each of two operations. -/
def inSuccession : List Action :=
  let issuer := Thread.operator 0
  [.issue issuer ⟨0, .journalTxb, 0⟩, .step issuer, .step issuer, .step issuer, .step issuer,
    .issue issuer ⟨0, .writeData, 0⟩, .step issuer, .step issuer]

/-- In `inSuccession` the first issue of an operation is delayed by an hour, which was registered
second: the delay of the operation that was issued before has been used, and the last one has come
into its place. -/
theorem delay_out_of_turn : ∃ l hs,
    (create ⟨0⟩ pairLast []).run? inSuccession = some (l, hs) ∧
      IssuesApart (create ⟨0⟩ pairLast []) inSuccession ∧
      coursesOf .writeData (seen course? (create ⟨0⟩ pairLast []) inSuccession) =
        [.later ⟨3600000000⟩] ∧
      ¬ ∀ (i : Nat) (c : Course),
        (coursesOf .writeData (seen course? (create ⟨0⟩ pairLast []) inSuccession))[i]? = some c →
          c = Course.of ((registered .writeData pairLast)[i]?.getD ⟨0⟩) := by
  have hrun : ((create ⟨0⟩ pairLast []).run? inSuccession).isSome = true := by decide +kernel
  have hcourses : coursesOf .writeData (seen course? (create ⟨0⟩ pairLast []) inSuccession) =
      [.later ⟨3600000000⟩] := by decide +kernel
  obtain ⟨⟨l, hs⟩, hrun⟩ := Option.isSome_iff_exists.mp hrun
  refine ⟨l, hs, hrun, by decide +kernel, hcourses, fun hall => ?_⟩
  have hfirst := hall 0 (.later ⟨3600000000⟩) (by rw [hcourses]; rfl)
  exact absurd hfirst (by decide)

end Life

end WriteAhead.Device
