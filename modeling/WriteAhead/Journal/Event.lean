import WriteAhead.Queue.Basic
import WriteAhead.Table.Notice
import WriteAhead.Token

/-!
# Events of a journal

Each step of a journal yields the events that happen in it. The events are the history of a run:
what its client was told, what was accepted and what was refused are read off them (`notified?`,
`accepted?`). They are also its log: `Event.lines` says which lines an event writes.
-/

namespace WriteAhead

/-- Something that happens in a journal. -/
inductive Event where
  /-- The journal runs, with this many slots and this much room in each queue. -/
  | started (slots room : Nat)
  /-- A worker runs. -/
  | workerStarted (s : Stage)
  /-- A worker gives up on a write. -/
  | workerStopping (s : Stage) (id : WriteId) (e : JournalError)
  /-- A worker has come to its end. -/
  | workerStopped (s : Stage)
  /-- A worker is found to have crashed. -/
  | workerCrashed (s : Stage)
  /-- The journal has been shut down. -/
  | shutDown
  /-- A request has to wait for the slot of its write. -/
  | slotBusy (id : WriteId)
  /-- A request has the slot of its write. -/
  | acquired (id : WriteId) (generation : Generation)
  /-- A producer has to wait for room in the queue of a stage. -/
  | queueFull (s : Stage) (room : Nat)
  /-- A request is in the queue of the first stage. -/
  | accepted (id : WriteId)
  /-- A request is refused. -/
  | refused (id : WriteId) (e : JournalError)
  /-- A worker has an operation on record and is about to give its token to the device. -/
  | issued (s : Stage) (t : Token)
  /-- The device has the token. -/
  | handed (s : Stage) (t : Token)
  /-- An operation is reported complete, with a token's generation or for whoever is there. -/
  | reported (id : WriteId) (op : Operation) (generation : Option Generation) (v : Table.Verdict)
  /-- A token is dropped. -/
  | dropped (t : Token)
  /-- A write passed the join of a stage and goes on to the next. -/
  | advanced (s next : Stage) (id : WriteId)
  /-- A write passed the join of the last stage. -/
  | persisted (id : WriteId)
  /-- The client is told that a write is complete. -/
  | notified (id : WriteId)
  /-- The last worker is done with a write; its slot may be released by that. -/
  | checkpointed (id : WriteId) (released : Bool)
  deriving DecidableEq, Repr

namespace Event

/-- The write of which the client is told. -/
def notified? : Event → Option WriteId
  | .notified id => some id
  | _ => none

/-- The write that is accepted. -/
def accepted? : Event → Option WriteId
  | .accepted id => some id
  | _ => none

/-- The stage whose worker calls the device. -/
def handing? : Event → Option Stage
  | .handed s _ => some s
  | _ => none

/-- The lines of a report: first its arrival, then what the table says, then a join that holds. -/
def reportLines (id : WriteId) (op : Operation) (generation : Option Generation)
    (v : Table.Verdict) : List Log.Line :=
  ⟨.trace, .dispatch, s!"{op.name} complete {id}"⟩ ::
    (v.notices id op generation).map Table.Notice.line ++
    match v.outcome op with
    | .joined s => [⟨.trace, .dispatch, s!"write {id}: {s.name} join satisfied"⟩]
    | .pending | .stale | .duplicate => []

/-- The lines that an event writes to the log. -/
def lines : Event → List Log.Line
  | .started slots room =>
    [⟨.info, .journal, s!"journal started: {slots} slots, stage queue capacity {room}"⟩]
  | .workerStarted s => [⟨.info, .stage, s!"{s.name} worker started"⟩]
  | .workerStopping s id e =>
    [⟨.info, .stage, s!"{s.name} worker stopping on write {id}: {e.message}"⟩]
  | .workerStopped s => [⟨.info, .stage, s!"{s.name} worker stopped"⟩]
  | .workerCrashed s => [⟨.error, .stage, s!"{s.name} worker panicked"⟩]
  | .shutDown => [⟨.info, .journal, "journal shut down"⟩]
  | .slotBusy id => [(Table.Notice.busy id).line]
  | .acquired id _ => [⟨.debug, .journal, s!"requesting write {id}"⟩]
  | .queueFull s room => [⟨.debug, .queue, Queue.fullMessage s.name room⟩]
  | .accepted _ | .refused .. | .handed .. | .persisted _ | .notified _ => []
  | .issued _ t => [⟨.debug, .stage, s!"issue {t.operation.name} {t.writeId}"⟩]
  | .reported id op generation v => reportLines id op generation v
  | .dropped t => [t.dropLine]
  | .advanced s next id =>
    [⟨.debug, .stage, s!"write {id}: {s.name} done, queued for {next.name}"⟩]
  | .checkpointed id released =>
    (Table.releaseNotices id released).map Table.Notice.line ++
      [⟨.debug, .stage, s!"write {id}: checkpointed"⟩]

end Event

end WriteAhead
