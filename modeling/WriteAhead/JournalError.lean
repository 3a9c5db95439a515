import WriteAhead.Operation
import WriteAhead.Text.Structured

/-!
# Errors of a journal

A full queue and a busy slot are not errors: both make the caller wait. `JournalError` holds the
causes for which a call is refused, `message` says them in words and `text` shows them as records.
-/

namespace WriteAhead

/-- Why a journal refuses a call. -/
inductive JournalError where
  /-- The worker of a stage could not be started. -/
  | spawnFailed (stage : Stage) (reason : String)
  /-- There is no slot for the write id; `max` is the largest that has one. -/
  | invalidWriteId (id max : Nat)
  /-- The configuration cannot build a working pipeline. -/
  | invalidConfig (reason : String)
  /-- The process already has its journal. -/
  | alreadyInitialized
  /-- The process has no journal yet. -/
  | notInitialized
  /-- The journal has been shut down. -/
  | shutDown
  deriving DecidableEq, Repr

namespace JournalError

/-- The error in words. -/
def message : JournalError → String
  | .spawnFailed stage reason => s!"Failed to spawn {stage.name} worker: {reason}"
  | .invalidWriteId id max => s!"Invalid write id {id}: max is {max}"
  | .invalidConfig reason => s!"Invalid configuration: {reason}"
  | .alreadyInitialized => "Journal is already initialized"
  | .notInitialized => "Journal is not initialized"
  | .shutDown => "Journal is shut down"

/-- The name of the kind of error. -/
def label : JournalError → String
  | .spawnFailed .. => "SpawnFailed"
  | .invalidWriteId .. => "InvalidWriteId"
  | .invalidConfig .. => "InvalidConfig"
  | .alreadyInitialized => "AlreadyInitialized"
  | .notInitialized => "NotInitialized"
  | .shutDown => "ShutDown"

/-- The error in structured text. -/
def text (e : JournalError) : String :=
  match e with
  | .spawnFailed stage reason =>
    Text.record e.label [("stage", stage.label), ("message", Text.quote reason)]
  | .invalidWriteId id max =>
    Text.record e.label [("write_id", toString id), ("max_write_id", toString max)]
  | .invalidConfig reason => e.label ++ "(" ++ Text.quote reason ++ ")"
  | .alreadyInitialized | .notInitialized | .shutDown => e.label

end JournalError

end WriteAhead
