import WriteAhead.Journal.Dispatcher

/-!
# The journal of a process

A process has at most one journal, from the first initialisation with a usable configuration on. The
calls of this module are those of that journal; before it exists they are refused.
-/

namespace WriteAhead

/-- The journal of a process, if it has one yet. -/
structure Shared where
  journal? : Option Journal := none
  deriving DecidableEq, Repr

namespace Shared

/-- Gives the process its journal. A process that has one keeps it, whatever the configuration. -/
def init (p : Shared) (c : Config) : Except JournalError (Shared × List Event) :=
  match p.journal? with
  | some _ => .error .alreadyInitialized
  | none => (Journal.start c).map fun (j, events) => (⟨some j⟩, events)

/-- The journal of the process. -/
def journal (p : Shared) : Except JournalError Journal :=
  match p.journal? with
  | some j => .ok j
  | none => .error .notInitialized

/-- A caller comes in that requests writes one after the other. -/
def submit (p : Shared) (ids : List WriteId) : Except JournalError Shared :=
  p.journal.map fun j => ⟨some (j.call (.submitter .between ids []))⟩

/-- A caller comes in that waits for all writes. -/
def awaitAll (p : Shared) : Except JournalError Shared :=
  p.journal.map fun j => ⟨some (j.call (.drainer .entering))⟩

/-- A free function for a completion: the method of the dispatcher of the same name. -/
def callback (p : Shared) (b : Callback) (id : WriteId) :
    Except JournalError (Shared × Table.Outcome × List Event) :=
  p.journal.map fun j =>
    let (j', o, es) := j.dispatchAs id b
    (⟨some j'⟩, o, es)

end Shared

end WriteAhead
