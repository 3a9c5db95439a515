import WriteAhead.Proofs.Journal.Closing
import WriteAhead.Shared

/-!
# The journal of a process is one journal

A process is called by free functions: `Shared.init`, `Shared.submit`, `Shared.awaitAll`, and one
`Shared.callback` for each operation that its block layer completes. `Shared.Run` has such calls in
any order, with what goes on inside the journal between them, and the answer to each. Up to the
first initialisation with a usable configuration every call is refused. From there on the process
has one journal and keeps it: `Alone` is that journal with nothing around it, and `OnJournal` says
what each call is to it and what it answers.

## Key results

- `Journal.dispatchAs_eq`: a callback reports the operation that it is named for
- `step_of_none`, `step_of_isInit`, `step_of_some`: one more action, before and after there is a
  journal
- `Run.one_journal`: what the calls of a process are answered
-/

namespace WriteAhead

/-! ## Names of callbacks -/

/-- The name of the callback for an operation: the `name` of the operation as one word. -/
def Operation.callbackName (op : Operation) : String :=
  String.ofList (op.name.toList.map fun c => if c = ' ' then '_' else c) ++ "_complete"

/-- Every callback is named for an operation: it is some `callbackName`. -/
theorem Callback.exists_callbackName (b : Callback) : ∃ op : Operation, b.name = op.callbackName :=
  match b with
  | .writeDataComplete => ⟨.writeData, by decide⟩
  | .journalTxbComplete => ⟨.journalTxb, by decide⟩
  | .journalBitmapComplete => ⟨.journalBitmap, by decide⟩
  | .journalInodeComplete => ⟨.journalInode, by decide⟩
  | .journalTxeComplete => ⟨.journalTxe, by decide⟩
  | .writeBitmapComplete => ⟨.writeBitmap, by decide⟩
  | .writeInodeComplete => ⟨.writeInode, by decide⟩

/-- The method that `Journal.dispatchAs` has for a callback reports the operation that the callback
is named for, and no other. -/
theorem Journal.dispatchAs_eq {b : Callback} {op : Operation} (hname : b.name = op.callbackName)
    (j : Journal) (id : WriteId) : j.dispatchAs id b = j.dispatch id op := by
  cases b <;> cases op <;> first | rfl | exact absurd hname (by decide)

namespace Journal

/-- What a call has returned, if it has: the reason of a refusal or none. -/
def returned? (j : Journal) (k : Nat) : Option (Option JournalError) :=
  if j.hasReturned k then
    j.callers[k]?.bind fun
      | .submitter _ _ answers => answers.head?
      | .drainer _ => some none
  else none

/-- The calls that return between two states of a journal, with what they return. -/
def returns (j j' : Journal) : List (Nat × Option JournalError) :=
  (List.range j'.callers.length).filterMap fun k =>
    if (j.returned? k).isSome then none else (j'.returned? k).map (k, ·)

end Journal

namespace Shared

/-! ## Calls of a process -/

/-- A call of a free function. -/
inductive Call where
  | init (c : Config)
  | request (id : WriteId)
  | waitAll
  | callback (b : Callback) (id : WriteId)
  deriving DecidableEq

/-- Something that can happen to a process. -/
inductive Action where
  | call (call : Call)
  /-- Something happens to the journal in it. -/
  | inside (a : Journal.Action)
  deriving DecidableEq

/-- What an action on a process is answered. -/
inductive Answer where
  | done
  | refused (e : JournalError)
  /-- The call has begun, as the one of this number. -/
  | begun (k : Nat)
  /-- What became of a report. -/
  | outcome (o : Table.Outcome)
  /-- The calls that begun before and have returned now, with what they return. -/
  | returned (rs : List (Nat × Option JournalError))
  deriving DecidableEq

/-- How many calls have begun. -/
def callCount (p : Shared) : Nat := p.journal?.elim 0 (·.callers.length)

/-- What a call does to a process, its answer, and the events. -/
def take (p : Shared) : Call → Shared × Answer × List Event
  | .init c =>
    match p.init c with
    | .ok (p', es) => (p', .done, es)
    | .error e => (p, .refused e, [])
  | .request id =>
    match p.submit [id] with
    | .ok p' => (p', .begun p.callCount, [])
    | .error e => (p, .refused e, [])
  | .waitAll =>
    match p.awaitAll with
    | .ok p' => (p', .begun p.callCount, [])
    | .error e => (p, .refused e, [])
  | .callback b id =>
    match p.callback b id with
    | .ok (p', o, es) => (p', .outcome o, es)
    | .error e => (p, .refused e, [])

/-- What an action does to a process, its answer, and the events; none if it is not possible. Nobody
has the journal of a process to himself, so it is never shut down. -/
def step (p : Shared) : Action → Option (Shared × Answer × List Event)
  | .call call => some (p.take call)
  | .inside a =>
    if a = .shutDown then none
    else p.journal?.bind fun j =>
      (j.step a).map fun (j', es) => (⟨some j'⟩, .returned (j.returns j'), es)

/-- The actions on a process that has no journal at first, with their answers, and the events. -/
inductive Run : List (Action × Answer) → Shared → List Event → Prop where
  | start : Run [] {} []
  | step {log : List (Action × Answer)} {p p' : Shared} {es es' : List Event} {a : Action}
      {answer : Answer} (h : Run log p es) (hstep : p.step a = some (p', answer, es')) :
      Run (log ++ [(a, answer)]) p' (es ++ es')

/-! ## One journal -/

namespace Action

/-- Whether the action gives the process its journal, or would. -/
def isInit : Action → Bool
  | .call (.init _) => true
  | _ => false

end Action

/-- What an action on a process, other than an initialisation, is to a journal that goes from `j` to
`j'` by it: the action on the journal, and the answer. A callback is the dispatcher's report of the
operation that it is named for. -/
inductive OnJournal (j j' : Journal) : Action → Journal.Action → Answer → Prop where
  | request {id : WriteId} :
      OnJournal j j' (.call (.request id)) (.submit [id]) (.begun j.callers.length)
  | waitAll : OnJournal j j' (.call .waitAll) .awaitAll (.begun j.callers.length)
  | callback {b : Callback} {id : WriteId} {op : Operation} (hname : b.name = op.callbackName) :
      OnJournal j j' (.call (.callback b id)) (.report id op) (.outcome (j.dispatch id op).2.1)
  | inside {a : Journal.Action} : OnJournal j j' (.inside a) a (.returned (j.returns j'))

/-- A journal that was started with a configuration and has nothing around it, the actions on it
with their answers, and its events. -/
inductive Alone (c : Config) : List (Action × Answer) → Journal → List Event → Prop where
  | start {j : Journal} {es : List Event} (hstart : Journal.start c = .ok (j, es)) : Alone c [] j es
  | step {log : List (Action × Answer)} {j j' : Journal} {es es' : List Event} {x : Action}
      {a : Journal.Action} {answer : Answer} (h : Alone c log j es)
      (hact : OnJournal j j' x a answer) (hstep : j.step a = some (j', es')) :
      Alone c (log ++ [(x, answer)]) j' (es ++ es')

/-- The answer to a call of a process that has no journal yet. -/
inductive RefusedFirst : Action × Answer → Prop where
  | init {c : Config} {f : Config.Fault} (hfault : c.fault? = some f) :
      RefusedFirst (.call (.init c), .refused (.invalidConfig f.message))
  | other {call : Call} (hother : (Action.call call).isInit = false) :
      RefusedFirst (.call call, .refused .notInitialized)

/-- What the calls of a process come to. -/
inductive OneJournal : List (Action × Answer) → Shared → List Event → Prop where
  /-- There was no initialisation with a usable configuration, so every call was refused. -/
  | none {log : List (Action × Answer)} (hrefused : ∀ x ∈ log, RefusedFirst x) :
      OneJournal log {} []
  /-- The first one, with the configuration `c`, gave the process the journal that it has since. -/
  | one {before after : List (Action × Answer)} {c : Config} {j : Journal} {es : List Event}
      (hrefused : ∀ x ∈ before, RefusedFirst x) (hvalid : c.fault? = Option.none)
      (hagain : ∀ x ∈ after, x.1.isInit = true → x.2 = .refused .alreadyInitialized)
      (halone : Alone c (after.filter (!·.1.isInit)) j es) :
      OneJournal (before ++ (.call (.init c), .done) :: after) ⟨some j⟩ es

variable {log : List (Action × Answer)} {p p' : Shared} {es es' : List Event} {c : Config}
  {j : Journal} {x : Action} {answer : Answer}

/-- What the journal goes through `Alone` is a run of a journal. -/
theorem Alone.run (h : Alone c log j es) : ∃ as, Journal.Run c as j es := by
  induction h with
  | start hstart => exact ⟨[], .start hstart⟩
  | step h hact hstep ih =>
    obtain ⟨as, hrun⟩ := ih
    exact ⟨_, hrun.step hstep⟩

/-! ## One more action -/

/-- Before it has its journal a process refuses every call, unless it gets its journal by it
(`init`). -/
theorem step_of_none (h : ({} : Shared).step x = some (p', answer, es')) :
    (p' = {} ∧ es' = [] ∧ RefusedFirst (x, answer)) ∨
      ∃ c j, x = .call (.init c) ∧ answer = .done ∧ c.fault? = none ∧ p' = ⟨some j⟩ ∧
        Journal.start c = .ok (j, es') := by
  cases x with
  | inside a =>
    simp only [step] at h
    split at h <;> exact nomatch h
  | call call =>
    have h : ({} : Shared).take call = (p', answer, es') := Option.some.inj h
    cases call with
    | init c =>
      cases hfault : c.fault? with
      | some f =>
        have hinit : ({} : Shared).init c = .error (.invalidConfig f.message) := by
          simp only [init, Journal.start, Config.check, hfault]
          rfl
        simp only [take, hinit, Prod.mk.injEq] at h
        obtain ⟨rfl, rfl, rfl⟩ := h
        exact .inl ⟨rfl, rfl, .init hfault⟩
      | none =>
        obtain ⟨j, es, hstart⟩ : ∃ j es, Journal.start c = .ok (j, es) := by
          simp only [Journal.start, Config.check, hfault]
          exact ⟨_, _, rfl⟩
        have hinit : ({} : Shared).init c = .ok (⟨some j⟩, es) := by
          simp only [init, hstart]
          rfl
        simp only [take, hinit, Prod.mk.injEq] at h
        obtain ⟨rfl, rfl, rfl⟩ := h
        exact .inr ⟨c, j, rfl, rfl, hfault, rfl, hstart⟩
    -- Every call but `init` is refused.
    | request | waitAll | callback =>
      simp only [take, submit, awaitAll, callback, journal, Except.map, Prod.mk.injEq] at h
      obtain ⟨rfl, rfl, rfl⟩ := h
      exact .inl ⟨rfl, rfl, .other rfl⟩

/-- A process that has its journal refuses another `init` as `alreadyInitialized`, and that changes
nothing. -/
theorem step_of_isInit (h : (⟨some j⟩ : Shared).step x = some (p', answer, es'))
    (hinit : x.isInit = true) :
    p' = ⟨some j⟩ ∧ es' = [] ∧ answer = .refused .alreadyInitialized := by
  cases x with
  | inside => exact nomatch hinit
  | call call =>
    cases call with
    | init c =>
      simp only [step, take, init, Option.some.injEq, Prod.mk.injEq] at h
      obtain ⟨rfl, rfl, rfl⟩ := h
      exact ⟨rfl, rfl, rfl⟩
    | request | waitAll | callback => exact nomatch hinit

/-- Every other action on the process is one on its journal, and is answered as that would be:
`OnJournal` has both. -/
theorem step_of_some (hopen : j.closing = .open)
    (h : (⟨some j⟩ : Shared).step x = some (p', answer, es')) (hinit : x.isInit = false) :
    ∃ a j', a ≠ .shutDown ∧ j.step a = some (j', es') ∧ p' = ⟨some j'⟩ ∧
      OnJournal j j' x a answer := by
  have hadmits : j.admitsCalls = true := by simp [Journal.admitsCalls, hopen]
  cases x with
  | inside a =>
    simp only [step] at h
    split at h
    · cases h
    · rename_i ha
      obtain ⟨⟨j', es⟩, hstep, heq⟩ := Option.map_eq_some_iff.mp h
      simp only [Prod.mk.injEq] at heq
      obtain ⟨rfl, rfl, rfl⟩ := heq
      exact ⟨a, j', ha, hstep, rfl, .inside⟩
  | call call =>
    have h : (⟨some j⟩ : Shared).take call = (p', answer, es') := Option.some.inj h
    cases call with
    | init => cases hinit
    | request id =>
      simp only [take, submit, journal, Except.map, Prod.mk.injEq] at h
      obtain ⟨rfl, rfl, rfl⟩ := h
      exact ⟨.submit [id], _, by simp, by rw [Journal.step, if_pos hadmits], rfl, .request⟩
    | waitAll =>
      simp only [take, awaitAll, journal, Except.map, Prod.mk.injEq] at h
      obtain ⟨rfl, rfl, rfl⟩ := h
      exact ⟨.awaitAll, _, by simp, by rw [Journal.step, if_pos hadmits], rfl, .waitAll⟩
    -- `dispatchAs` takes the method of the operation that the callback is named for.
    | callback b id =>
      obtain ⟨op, hname⟩ := b.exists_callbackName
      simp only [take, callback, journal, Except.map, Journal.dispatchAs_eq hname,
        Prod.mk.injEq] at h
      obtain ⟨rfl, rfl, rfl⟩ := h
      exact ⟨.report id op, _, by simp, Journal.step_report j id op, rfl, .callback hname⟩

/-! ## Whole runs -/

/-- Before the first usable `init` there is no journal, and from it on there is one that was never
shut down. -/
private theorem Run.settled (h : Run log p es) :
    OneJournal log p es ∧ ∀ j, p.journal? = some j → j.closing = .open := by
  induction h with
  | start => exact ⟨.none (by simp), by simp⟩
  | @step log p p' es es' x answer h hstep ih =>
    obtain ⟨hone, hopen⟩ := ih
    -- Before the first valid `init` every call is refused. From then on there is the one journal.
    cases hone with
    | none hrefused =>
      rcases step_of_none hstep with ⟨rfl, rfl, hanswer⟩ | ⟨c, j, rfl, rfl, hvalid, rfl, hstart⟩
      · refine ⟨.none fun y hy => ?_, by simp⟩
        rcases List.mem_append.mp hy with hy | hy
        · exact hrefused y hy
        · rw [List.mem_singleton.mp hy]
          exact hanswer
      · refine ⟨.one hrefused hvalid (by simp) (.start hstart), fun j' hj' => ?_⟩
        obtain rfl := Option.some.inj hj'
        obtain ⟨-, -, rfl, -⟩ := Journal.start_eq_ok hstart
        rfl
    | @one before after c j es hrefused hvalid hagain halone =>
      rw [List.append_assoc, List.cons_append]
      cases hinit : x.isInit with
      | true =>
        obtain ⟨rfl, rfl, rfl⟩ := step_of_isInit hstep hinit
        rw [List.append_nil]
        refine ⟨.one hrefused hvalid (fun y hy hy' => ?_) ?_, hopen⟩
        · rcases List.mem_append.mp hy with hy | hy
          · exact hagain y hy hy'
          · rw [List.mem_singleton.mp hy]
        · rw [List.filter_append]
          simpa [hinit] using halone
      | false =>
        obtain ⟨a, j', ha, hjournal, rfl, hact⟩ := step_of_some (hopen j rfl) hstep hinit
        obtain ⟨as, hrun⟩ := halone.run
        have hchange := Journal.change_of_step hrun.attended hjournal
        refine ⟨.one hrefused hvalid (fun y hy hy' => ?_) ?_, fun j'' hj'' => ?_⟩
        · rcases List.mem_append.mp hy with hy | hy
          · exact hagain y hy hy'
          · rw [List.mem_singleton.mp hy, hinit] at hy'
            exact nomatch hy'
        · rw [List.filter_append]
          simpa [hinit] using halone.step hact hjournal
        · obtain rfl := Option.some.inj hj''
          exact hchange.closing_of_open (hopen j rfl) ha

/-- Whatever calls come to a process in whatever order: up to the first initialisation with a usable
configuration all of them are refused, and from then on the process is one journal that was started
with this configuration and answers every call but a further initialisation, which is refused
(`OneJournal`). -/
theorem Run.one_journal (h : Run log p es) : OneJournal log p es := h.settled.1

/-- Takes the actions one after the other, each with its answer; none if one is not possible. -/
def trace? (as : List Action) : Option (List (Action × Answer) × Shared × List Event) :=
  as.foldlM (fun r a => (r.2.1.step a).map fun q =>
    (r.1 ++ [(a, q.2.1)], q.1, r.2.2 ++ q.2.2)) ([], {}, [])

/-- A list of actions that `trace?` takes is a run. -/
theorem Run.of_trace? {as : List Action} (h : trace? as = some (log, p, es)) : Run log p es := by
  -- From the end, as a run is built.
  induction as using List.reverseRecOn generalizing log p es with
  | nil =>
    simp only [trace?, List.foldlM_nil, Option.pure_def, Option.some.injEq, Prod.mk.injEq] at h
    obtain ⟨rfl, rfl, rfl⟩ := h
    exact .start
  | append_singleton as a ih =>
    rw [trace?, List.foldlM_append] at h
    obtain ⟨⟨log₀, p₀, es₀⟩, htrace, hlast⟩ := Option.bind_eq_some_iff.mp h
    simp only [List.foldlM_cons, List.foldlM_nil, Option.bind_eq_bind, Option.pure_def,
      Option.bind_fun_some] at hlast
    obtain ⟨⟨p', answer, es'⟩, hstep, heq⟩ := Option.map_eq_some_iff.mp hlast
    simp only [Prod.mk.injEq] at heq
    obtain ⟨rfl, rfl, rfl⟩ := heq
    exact (ih htrace).step hstep

/-- Calls before and after a process gets its journal: one request is for a write that has no slot,
one is accepted, and a callback reports an operation of it. -/
theorem one_journal_of_lifecycle :
    ∃ log p es, log.map Prod.fst = [.call (.callback .writeDataComplete 0),
        .call (.init { bufferSize := 0 }), .call (.request 0),
        .call (.init { bufferSize := 1, maxRequests := 1 }), .call (.init { bufferSize := 0 }),
        .call (.request 3), .inside (.act (.caller 0)), .call (.request 0),
        .inside (.act (.caller 1)), .inside (.act (.caller 1)), .inside (.act (.caller 1)),
        .call (.callback .writeInodeComplete 0), .call (.init { bufferSize := 2 })] ∧
      log.map Prod.snd = [.refused .notInitialized,
        .refused (.invalidConfig "buffer_size must be at least 1"), .refused .notInitialized, .done,
        .refused .alreadyInitialized, .begun 0, .returned [(0, some (.invalidWriteId 3 0))],
        .begun 1, .returned [], .returned [], .returned [(1, none)], .outcome .pending,
        .refused .alreadyInitialized] ∧
      Run log p es ∧ OneJournal log p es := by
  generalize has : ([.call (.callback .writeDataComplete 0),
    .call (.init { bufferSize := 0 }), .call (.request 0),
    .call (.init { bufferSize := 1, maxRequests := 1 }), .call (.init { bufferSize := 0 }),
    .call (.request 3), .inside (.act (.caller 0)), .call (.request 0),
    .inside (.act (.caller 1)), .inside (.act (.caller 1)), .inside (.act (.caller 1)),
    .call (.callback .writeInodeComplete 0), .call (.init { bufferSize := 2 })] : List Action) = as
  have htrace : (trace? as).map (fun r => (r.1.map Prod.fst, r.1.map Prod.snd)) =
      some (as, [.refused .notInitialized,
        .refused (.invalidConfig "buffer_size must be at least 1"), .refused .notInitialized, .done,
        .refused .alreadyInitialized, .begun 0, .returned [(0, some (.invalidWriteId 3 0))],
        .begun 1, .returned [], .returned [], .returned [(1, none)], .outcome .pending,
        .refused .alreadyInitialized]) := by
    subst has
    decide +kernel
  obtain ⟨⟨log, p, es⟩, htrace, heq⟩ := Option.map_eq_some_iff.mp htrace
  obtain ⟨hactions, hanswers⟩ := Prod.mk.inj heq
  have hrun := Run.of_trace? htrace
  exact ⟨log, p, es, hactions, hanswers, hrun, Run.one_journal hrun⟩

end Shared

end WriteAhead
