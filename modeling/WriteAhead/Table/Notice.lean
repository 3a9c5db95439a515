import WriteAhead.Log.Line
import WriteAhead.Table.Basic

/-!
# Messages of the request table

Each `Notice` is a fact that the table writes to the log. `Verdict.notices` lists those of a report,
in the order in which they are written.
-/

namespace WriteAhead.Table

/-- A fact that the table writes to the log. -/
inductive Notice where
  /-- A claim has to wait for the occupant of the slot. -/
  | busy (id : WriteId)
  /-- A report for a write id without a slot. -/
  | unknown (id : WriteId) (op : Operation)
  /-- A report for no current occupant. -/
  | stale (id : WriteId) (op : Operation) (generation : Option Generation) (current : Generation)
  /-- A report of an operation that had already completed. -/
  | duplicate (id : WriteId) (op : Operation)
  /-- A report of an operation that was not outstanding. -/
  | unissued (id : WriteId) (op : Operation)
  /-- A slot became free. -/
  | released (id : WriteId)
  deriving DecidableEq, Repr

/-- An optional generation in structured text. -/
def generationText : Option Generation → String
  | none => "None"
  | some g => s!"Some({g})"

/-- The severity of a notice. -/
def Notice.level : Notice → Log.Level
  | .busy _ => .debug
  | .released _ => .trace
  | .unknown .. | .stale .. | .duplicate .. | .unissued .. => .warn

/-- The notice in words. -/
def Notice.message : Notice → String
  | .busy id => s!"write {id}: slot busy, waiting for previous occupant"
  | .unknown id op => s!"{op.name} completion for unknown write {id}, ignoring"
  | .stale id op generation current =>
    s!"write {id}: stale {op.name} completion (generation {generationText generation}, " ++
      s!"slot at {current}), ignoring"
  | .duplicate id op => s!"write {id}: duplicate {op.name} completion, ignoring"
  | .unissued id op => s!"write {id}: {op.name} completed without a recorded issue"
  | .released id => s!"write {id}: slot released"

/-- The notice as a log line. -/
def Notice.line (n : Notice) : Log.Line := ⟨n.level, .table, n.message⟩

/-- The notice of a slot that was released, if it was. -/
def releaseNotices (id : WriteId) (released : Bool) : List Notice :=
  if released then [.released id] else []

/-- The notices of a report. -/
def Verdict.notices (id : WriteId) (op : Operation) (generation : Option Generation) :
    Verdict → List Notice
  | .unknown => [.unknown id op]
  | .stale current => [.stale id op generation current]
  | .duplicate => [.duplicate id op]
  | .accepted _ unissued released =>
    (if unissued then [.unissued id op] else []) ++ releaseNotices id released

end WriteAhead.Table
