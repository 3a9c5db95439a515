import WriteAhead.JournalError

/-!
# Configuration

`Config` holds the sizes of a journal and the first part of its workers' names. It is built from
settings, of which the last of each kind counts, and checked by `Config.check`: a queue or a table
without room and an empty name are refused, in this order (`check_eq_ok_iff`). Sizes are natural
numbers, and there is memory for whatever they ask for.
-/

namespace WriteAhead

/-- The sizes of a journal and the name of its workers. -/
structure Config where
  /-- How many writes each stage queue holds. -/
  bufferSize : Nat := 8
  /-- How many slots the table has: valid write ids are below it. -/
  maxRequests : Nat := 64
  /-- What the name of each worker starts with. -/
  workerName : String := "tidewal"
  deriving DecidableEq, Repr, Inhabited

namespace Config

/-- One setting of a configuration. -/
inductive Setting where
  | bufferSize (n : Nat)
  | maxRequests (n : Nat)
  | workerName (s : String)
  deriving DecidableEq, Repr

/-- Replaces the value of one setting. -/
def apply (c : Config) : Setting → Config
  | .bufferSize n => { c with bufferSize := n }
  | .maxRequests n => { c with maxRequests := n }
  | .workerName s => { c with workerName := s }

/-- The default configuration with the settings applied in order. -/
def ofSettings (settings : List Setting) : Config := settings.foldl apply {}

/-- Why a configuration cannot build a working pipeline. -/
inductive Fault where
  | noQueueRoom
  | noSlots
  | noWorkerName
  deriving DecidableEq, Repr

/-- The fault in words. -/
def Fault.message : Fault → String
  | .noQueueRoom => "buffer_size must be at least 1"
  | .noSlots => "max_requests must be at least 1"
  | .noWorkerName => "thread_name_prefix must not be empty"

/-- The first fault of a configuration. -/
def fault? (c : Config) : Option Fault :=
  if c.bufferSize = 0 then some .noQueueRoom
  else if c.maxRequests = 0 then some .noSlots
  else if c.workerName = "" then some .noWorkerName
  else none

/-- Checks that the configuration can build a working pipeline. -/
def check (c : Config) : Except JournalError Unit :=
  match c.fault? with
  | some f => .error (.invalidConfig f.message)
  | none => .ok ()

/-- The name of the worker of a stage. -/
def workerOf (c : Config) (s : Stage) : String := c.workerName ++ "-" ++ s.name

/-- The configuration in structured text. -/
def text (c : Config) : String :=
  Text.record "JournalConfig"
    [("buffer_size", toString c.bufferSize), ("max_requests", toString c.maxRequests),
      ("thread_name_prefix", Text.quote c.workerName)]

/-- A configuration has no `fault?` if there is room in the queues, there are slots, and the workers
have a name. -/
theorem fault?_eq_none_iff {c : Config} :
    c.fault? = none ↔ 0 < c.bufferSize ∧ 0 < c.maxRequests ∧ c.workerName ≠ "" := by
  simp only [fault?, Nat.pos_iff_ne_zero]
  split <;> simp_all
  split <;> simp_all

/-- A configuration passes `check` if it has no fault. -/
theorem check_eq_ok_iff {c : Config} :
    c.check = .ok () ↔ 0 < c.bufferSize ∧ 0 < c.maxRequests ∧ c.workerName ≠ "" := by
  rw [← fault?_eq_none_iff, check]
  split <;> simp_all

end Config

end WriteAhead
