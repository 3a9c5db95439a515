import WriteAhead.Journal.Step

/-!
# The dispatcher of a journal

A block layer that keeps no tokens reports an operation by the write that it belongs to. It calls
`Journal.dispatch` with the operation, or the method that is named for the operation: `Callback` has
the names, and `Journal.dispatchAs` is the method of each. Such a report carries no generation, so
it counts for whoever occupies the slot of the write.
-/

namespace WriteAhead

/-- A method of the dispatcher that is named for the operation it reports. The process has a free
function of the same name for each. -/
inductive Callback where
  | writeDataComplete
  | journalTxbComplete
  | journalBitmapComplete
  | journalInodeComplete
  | journalTxeComplete
  | writeBitmapComplete
  | writeInodeComplete
  deriving DecidableEq, Repr

namespace Callback

/-- Every callback, in the order in which they are declared. -/
def all : List Callback :=
  [.writeDataComplete, .journalTxbComplete, .journalBitmapComplete, .journalInodeComplete,
    .journalTxeComplete, .writeBitmapComplete, .writeInodeComplete]

/-- The name that a block layer calls. -/
def name : Callback → String
  | .writeDataComplete => "write_data_complete"
  | .journalTxbComplete => "journal_txb_complete"
  | .journalBitmapComplete => "journal_bitmap_complete"
  | .journalInodeComplete => "journal_inode_complete"
  | .journalTxeComplete => "journal_txe_complete"
  | .writeBitmapComplete => "write_bitmap_complete"
  | .writeInodeComplete => "write_inode_complete"

/-- Reads a name back. -/
def ofName? (s : String) : Option Callback := all.find? (·.name == s)

/-- `ofName?` finds every callback under its own name, so the names are distinct. -/
theorem ofName?_name (b : Callback) : ofName? b.name = some b := by
  cases b <;> decide

end Callback

namespace Journal

/-- An operation is reported complete for whoever occupies the slot. Yields what the block layer is
told and what happened. -/
def dispatch (j : Journal) (id : WriteId) (op : Operation) :
    Journal × Table.Outcome × List Event :=
  let (j', v) := j.report id op none
  (j', v.outcome op, [.reported id op none v])

/-- The method of each name. -/
def dispatchAs (j : Journal) (id : WriteId) : Callback → Journal × Table.Outcome × List Event
  | .writeDataComplete => j.dispatch id .writeData
  | .journalTxbComplete => j.dispatch id .journalTxb
  | .journalBitmapComplete => j.dispatch id .journalBitmap
  | .journalInodeComplete => j.dispatch id .journalInode
  | .journalTxeComplete => j.dispatch id .journalTxe
  | .writeBitmapComplete => j.dispatch id .writeBitmap
  | .writeInodeComplete => j.dispatch id .writeInode

/-- `dispatch` does to a journal what a report without a token does, `Action.report`. -/
theorem step_report (j : Journal) (id : WriteId) (op : Operation) :
    j.step (.report id op) = some ((j.dispatch id op).1, (j.dispatch id op).2.2) := rfl

end Journal

end WriteAhead
