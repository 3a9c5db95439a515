import WriteAhead.Shared
import WriteAhead.Simulation

/-!
# A bench for journals

The bench drives the journal of a process with commands. Each blocking command is a call of a caller
of its own, numbered in order of their start; after each command every thread comes to rest.

The device is wired to a simulated one, or it is the bench itself: then every token that a worker
hands over is parked until a command completes it, drops it or issues it to a simulated device that
the bench has set up.
-/

namespace WriteAhead.Bench

/-- What a numbered caller was started for. -/
inductive Errand where
  | request
  | requests
  | waitAll
  deriving DecidableEq, Repr

/-- A numbered call; a call of a process without a journal has no caller in it. -/
structure Ticket where
  errand : Errand
  caller? : Option Nat
  deriving DecidableEq, Repr

/-- The name of a parked token; without a generation it is the lowest that there is. -/
structure TokenName where
  writeId : WriteId
  operation : Operation
  generation? : Option Generation
  deriving DecidableEq, Repr

/-- What becomes of a token that is to be issued to the simulated device. -/
inductive Handover where
  | issued
  | noToken
  | noDevice
  deriving DecidableEq, Repr

/-- Why a command does nothing. -/
inductive Refusal where
  /-- Another request has the same write ahead of it. -/
  | waiterExists
  | noToken
  | noDevice
  | noJournal
  /-- Some call has not come to its end. -/
  | busy
  deriving DecidableEq, Repr

/-- A process under test. -/
structure JournalBench where
  shared : Shared := {}
  device? : Option Device := none
  /-- Whether the workers issue their operations to the simulated device. -/
  wired : Bool
  /-- The writes on which the client panics when it is told of them. -/
  panicsOn : List WriteId := []
  now : Device.Instant := 0
  /-- The numbered calls, in order of their start. -/
  tickets : Array Ticket := #[]
  /-- All that has happened. -/
  history : Array Simulation.Event := #[]

namespace JournalBench

/-- What can be asked of a process. -/
inductive Command where
  | init (c : Config)
  | request (id : WriteId)
  | requests (ids : List WriteId)
  | waitAll
  | waitAllBriefly
  | complete (t : TokenName)
  | drop (t : TokenName)
  | token (t : TokenName)
  | finishStage (id : WriteId)
  | finish (id : WriteId)
  | dispatch (id : WriteId) (op : Operation)
  | callback (c : Callback) (id : WriteId)
  | slot (id : WriteId)
  | stats
  | config
  | text
  | threads
  | shutDown
  | newDevice (d : Device)
  | issue (ts : List TokenName) (patiently : Bool)
  | dropDevice
  | hold (op : Operation) (id : WriteId)
  | release
  | deviceState
  | deviceCount (id : WriteId) (op : Operation)
  | deviceText
  | deviceEvents

/-- The answer to a command. -/
inductive Reply where
  | done
  /-- The answer of a call that can be refused. -/
  | result (e : Option JournalError)
  /-- The answers of requests made one after the other. -/
  | results (es : List (Option JournalError))
  /-- The call has not come to its end; it is the one of this number. -/
  | blocked (k : Nat)
  | refusal (r : Refusal)
  | flag (b : Bool)
  | number (n : Nat)
  | outcome (o : Table.Outcome)
  | outcomes (os : List Table.Outcome)
  | token (t : Token)
  | slot (s : Option Slot)
  /-- The journal, for its counters or its configuration; none if there is none. -/
  | stats (j : Option Journal)
  | config (c : Option Config)
  | text (s : Option String)
  | threads (names : PerStage (List String))
  | handovers (hs : List Handover)
  | deviceState (held scheduled : Nat)
  | deviceEvents (es : List IoEvent)

/-- What is seen of a command: its answer and the earlier calls that ended. -/
structure Record where
  reply : Reply
  woke : List (Nat × Reply)

/-! ## Views -/

/-- The events of the journal so far. -/
def journalEvents (b : JournalBench) : List Event := b.history.toList.filterMap (·.journal?)

/-- The writes of which the client was told, in order. -/
def completed (b : JournalBench) : List WriteId := b.journalEvents.filterMap (·.notified?)

/-- The tokens that are parked at the bench, in order. -/
def parked (b : JournalBench) : List Token :=
  match b.shared.journal? with
  | none => []
  | some j =>
    let elsewhere := (b.device?.map (·.tokens)).getD []
    (j.outstanding.filter (· ∉ elsewhere)).mergeSort Token.le

/-- The parked token of a name. -/
def find? (b : JournalBench) (n : TokenName) : Option Token :=
  b.parked.find? fun t =>
    t.writeId = n.writeId ∧ t.operation = n.operation ∧ n.generation?.all (· = t.generation)

/-- The names of the threads on which each stage called the device. -/
def threadNames (b : JournalBench) : PerStage (List String) :=
  .ofFn fun s =>
    match b.shared.journal? with
    | some j => if b.journalEvents.any (·.handing? = some s) then [j.config.workerOf s] else []
    | none => []

/-- The caller of a numbered call. -/
def callerOf? (b : JournalBench) (t : Ticket) : Option Caller :=
  t.caller?.bind fun k => b.shared.journal?.bind (·.callers[k]?)

/-- The answer of a numbered call that is over. -/
def answer? (b : JournalBench) (t : Ticket) : Option Reply :=
  (b.callerOf? t).bind fun c =>
    if !c.isOver then none
    else
      match c, t.errand with
      | .submitter _ _ answers, .requests => some (.results answers)
      | .submitter _ _ answers, _ => some (.result answers.head?.join)
      | .drainer _, _ => some (.result none)

/-- The numbered calls that are not over, with their callers. -/
def openCalls (b : JournalBench) : List (Nat × Caller) :=
  b.tickets.toList.zipIdx.filterMap fun (t, k) =>
    (b.callerOf? t).bind fun c => if c.isOver then none else some (k, c)

/-! ## Running -/

/-- Notes what happened. -/
def log (b : JournalBench) (events : List Simulation.Event) : JournalBench :=
  { b with history := b.history ++ events }

/-- Puts a journal into the process. -/
def withJournal (b : JournalBench) (step : Journal.Step) : JournalBench :=
  { b with shared := ⟨some step.1⟩ }.log (step.2.map .journal)

/-- Puts the parts of a simulation back. -/
def withSimulation (b : JournalBench) (step : Simulation.Step) : JournalBench :=
  { b with shared := ⟨some step.1.journal⟩, device? := some step.1.device, now := step.1.now }.log
    step.2

/-- Lets every thread come to rest. A patient bench waits for the timer of the device too. -/
def settle (b : JournalBench) (patient : Bool) : JournalBench :=
  match b.shared.journal?, b.device? with
  | none, _ => b
  | some j, none => b.withJournal (j.settle b.panicsOn)
  | some j, some d =>
    b.withSimulation (Simulation.settle b.panicsOn patient ⟨j, d, b.wired, b.now⟩)

/-- Lets every thread come to rest after a command. -/
def rest (b : JournalBench) : JournalBench := b.settle b.wired

/-- Something happens to the journal, if there is one and it is possible; yields the events. -/
def act (b : JournalBench) (a : Journal.Action) : JournalBench × List Event :=
  match b.shared.journal?.bind (·.step a) with
  | some step => (b.withJournal step, step.2)
  | none => (b, [])

/-- The calls that were open before a command and are over after it. -/
def wokenSince (b before : JournalBench) : List (Nat × Reply) :=
  before.openCalls.filterMap fun (k, _) => (b.tickets[k]?.bind b.answer?).map (k, ·)

/-! ## Calls of the journal -/

/-- Begins a numbered call, and lets every thread come to rest. A refusal ends it at once. -/
def begin (b : JournalBench) (errand : Errand) (call : Except JournalError Shared)
    (refused : JournalError → Reply) : JournalBench × Reply :=
  let k := b.tickets.size
  match call with
  | .error e => ({ b with tickets := b.tickets.push ⟨errand, none⟩ }, refused e)
  | .ok shared =>
    let ticket : Ticket := ⟨errand, some ((b.shared.journal?.map (·.callers.length)).getD 0)⟩
    let b := { b with shared, tickets := b.tickets.push ticket }.rest
    (b, (b.answer? ticket).getD (.blocked k))

/-- Requests writes, unless some open request has one of them ahead of it. -/
def submit (b : JournalBench) (errand : Errand) (ids : List WriteId)
    (refused : JournalError → Reply) : JournalBench × Reply :=
  if b.openCalls.any fun (_, c) => c.ahead.any ids.contains then (b, .refusal .waiterExists)
  else b.begin errand (b.shared.submit ids) refused

/-- Gives the process its journal. -/
def init (b : JournalBench) (c : Config) : JournalBench × Reply :=
  match b.shared.init c with
  | .error e => (b, .result (some e))
  | .ok (shared, events) =>
    ({ b with shared }.log (events.map .journal) |>.rest, .result none)

/-- The outcome of the report among some events. -/
def outcome? (events : List Event) : Option Table.Outcome :=
  events.findSome? fun
    | .reported _ op _ v => some (v.outcome op)
    | _ => none

/-- An operation is reported complete, and every thread comes to rest. -/
def report (b : JournalBench) (a : Journal.Action) : JournalBench × Option Table.Outcome :=
  let (b, events) := b.act a
  (b.rest, outcome? events)

/-- Shuts the journal down, unless some call is open. -/
def shutDown (b : JournalBench) : JournalBench × Reply :=
  if b.openCalls.isEmpty then ((b.act .shutDown).1.rest, .done) else (b, .refusal .busy)

/-! ## Parked tokens -/

/-- Completes parked tokens in order, and lets every thread come to rest after each. -/
def completeAll (b : JournalBench) : List Token → JournalBench × List Table.Outcome
  | [] => (b, [])
  | t :: ts =>
    let (b, o) := b.report (.complete t)
    let (b, os) := b.completeAll ts
    (b, o.toList ++ os)

/-- The tokens parked for a write. -/
def parkedFor (b : JournalBench) (id : WriteId) : List Token := b.parked.filter (·.writeId = id)

/-- Completes what is parked for a write until nothing is, at most a given number of times. -/
def finish (b : JournalBench) (id : WriteId) : Nat → JournalBench × List Table.Outcome
  | 0 => (b, [])
  | rounds + 1 =>
    match b.parkedFor id with
    | [] => (b, [])
    | ts =>
      let (b, os) := b.completeAll ts
      let (b, os') := b.finish id rounds
      (b, os ++ os')

/-- A bound on the tokens that are or will be parked without another command. -/
def tokensLeft (b : JournalBench) : Nat :=
  b.parked.length +
    (b.shared.journal?.map fun j => Operation.all.length * (j.writesLeft + 1)).getD 0

/-- Runs a command on a parked token, if there is one of the name. -/
def onToken (b : JournalBench) (n : TokenName) (f : Token → JournalBench × Reply) :
    JournalBench × Reply :=
  match b.find? n with
  | some t => f t
  | none => (b, .refusal .noToken)

/-! ## The simulated device -/

/-- Runs a command on the simulated device, if there is one. -/
def onDevice (b : JournalBench) (f : Device → JournalBench × Reply) : JournalBench × Reply :=
  match b.device? with
  | some d => f d
  | none => (b, .refusal .noDevice)

/-- The thread of the bench inside the device. -/
def operator : Device.Thread := .operator 0

/-- Lets the bench's own thread come out of the device, and nobody else go on. -/
def comeOut (b : JournalBench) : JournalBench :=
  match b.shared.journal?, b.device? with
  | some j, some d =>
    let s : Simulation := ⟨j, d, b.wired, b.now⟩
    b.withSimulation (runToRest (·.step (.device operator)) s.workLeft s)
  | _, _ => b

/-- Issues parked tokens to the simulated device. After each of them every thread comes to rest or,
if the bench is patient, only the call into the device comes to its end. -/
def issueAll (b : JournalBench) (patient : Bool) :
    List TokenName → JournalBench × List Handover
  | [] => (b, [])
  | n :: ns =>
    let (b, h) : JournalBench × Handover := match b.find? n, b.device? with
      | none, _ => (b, .noToken)
      | some _, none => (b, .noDevice)
      | some t, some d =>
        let b := { b with device? := some (d.issue operator t) }
        (if patient then b.comeOut else b.rest, .issued)
    let (b, hs) := b.issueAll patient ns
    (b, h :: hs)

/-- Releases what is held, and lets every thread come to rest. -/
def release (b : JournalBench) (d : Device) : JournalBench :=
  match b.shared.journal? with
  | some _ => { b with device? := some (d.release operator) }.rest
  | none => { b with device? := some { d with holds := [] } }

/-- Drops the simulated device: what it holds is dropped, and what it has scheduled is completed. -/
def dropDevice (b : JournalBench) : JournalBench :=
  match b.device? with
  | none => b
  | some d =>
    let (d, dropped) := d.close
    let b := dropped.foldl (fun b t => (b.act (.drop t)).1) { b with device? := some d }
    { b.rest with device? := none }

/-! ## Commands -/

/-- Performs a command on the journal, if there is one. -/
def onJournal (b : JournalBench) (f : Journal → Reply) : JournalBench × Reply :=
  match b.shared.journal? with
  | some j => (b, f j)
  | none => (b, .refusal .noJournal)

/-- Performs a command, and lets every thread come to rest. -/
def run (b : JournalBench) : Command → JournalBench × Reply
  | .init c => b.init c
  | .request id => b.submit .request [id] fun e => .result (some e)
  | .requests ids => b.submit .requests ids fun e => .results (ids.map fun _ => some e)
  | .waitAll => b.begin .waitAll b.shared.awaitAll fun e => .result (some e)
  | .waitAllBriefly => b.onJournal fun j => .flag j.table.table.isDrained
  | .complete n => b.onToken n fun t =>
    let (b, o) := b.report (.complete t)
    (b, (o.map .outcome).getD .done)
  | .drop n => b.onToken n fun t => ((b.act (.drop t)).1.rest, .done)
  | .token n => b.onToken n fun t => (b, .token t)
  | .finishStage id =>
    let (b, os) := b.completeAll (b.parkedFor id)
    (b, .outcomes os)
  | .finish id =>
    let (b, os) := b.finish id b.tokensLeft
    (b, .outcomes os)
  | .dispatch id op =>
    match b.report (.report id op) with
    | (b, some o) => (b, .outcome o)
    | (b, none) => (b, .refusal .noJournal)
  | .callback c id =>
    match b.shared.callback c id with
    | .ok (shared, o, events) => (({ b with shared }.log (events.map .journal)).rest, .outcome o)
    | .error e => (b, .result (some e))
  | .slot id => (b, .slot (b.shared.journal?.bind (·.table.table.slot? id)))
  | .stats => (b, .stats b.shared.journal?)
  | .config => (b, .config (b.shared.journal?.map (·.config)))
  | .text => (b, .text (b.shared.journal?.map (·.text)))
  | .threads => (b, .threads b.threadNames)
  | .shutDown => b.shutDown
  | .newDevice d => ({ b.dropDevice with device? := some d }, .done)
  | .issue ns patient =>
    let (b, hs) := b.issueAll patient ns
    (b.settle (b.wired || patient), .handovers hs)
  | .dropDevice => (b.dropDevice, .done)
  | .hold op id => b.onDevice fun d => ({ b with device? := some (d.hold op id) }, .done)
  | .release => b.onDevice fun d => (b.release d, .number d.held.length)
  | .deviceState => b.onDevice fun d => (b, .deviceState d.held.length d.scheduledCount)
  | .deviceCount id op => b.onDevice fun d => (b, .number (d.issuedCount id op))
  | .deviceText => b.onDevice fun d => (b, .text (some d.text))
  | .deviceEvents => b.onDevice fun d => (b, .deviceEvents d.events)

/-- Performs a command; tells its answer and which earlier calls ended. -/
def perform (b : JournalBench) (c : Command) : JournalBench × Record :=
  let (b', reply) := b.run c
  (b', ⟨reply, b'.wokenSince b⟩)

/-- The lines of all that has happened, the shutdown at the end included; none if some call never
came to its end. -/
def allLines? (b : JournalBench) : Option (List Log.Line) :=
  if b.openCalls.isEmpty then some (b.shutDown.1.history.toList.flatMap (·.lines)) else none

end JournalBench

end WriteAhead.Bench
