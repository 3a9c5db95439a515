/-!
# Operations and stages

A write request is made durable by seven block operations, in three stages:

| stage      | operations                                               |
|------------|----------------------------------------------------------|
| metadata   | the data, and the journal's transaction begin, bitmap and inode |
| commit     | the journal's transaction end                             |
| checkpoint | the bitmap and the inode, in place                        |

`Operation.all` and `Stage.all` list both in pipeline order. `PerStage` is a record with one value
for each stage; `PerStage.get_set` is its only law.
-/

namespace WriteAhead

/-- Names a logical write request; it is also the index of the slot that the request occupies. -/
abbrev WriteId := Nat

/-- A block operation of a write request. -/
inductive Operation where
  | writeData
  | journalTxb
  | journalBitmap
  | journalInode
  | journalTxe
  | writeBitmap
  | writeInode
  deriving DecidableEq, Repr, Inhabited

/-- A stage of the pipeline. -/
inductive Stage where
  | metadata
  | commit
  | checkpoint
  deriving DecidableEq, Repr, Inhabited

namespace Operation

/-- Every operation, in pipeline order. -/
def all : List Operation :=
  [.writeData, .journalTxb, .journalBitmap, .journalInode, .journalTxe, .writeBitmap, .writeInode]

/-- The position of the operation in `Operation.all`. -/
def index : Operation → Nat
  | .writeData => 0
  | .journalTxb => 1
  | .journalBitmap => 2
  | .journalInode => 3
  | .journalTxe => 4
  | .writeBitmap => 5
  | .writeInode => 6

/-- The stage that issues the operation. -/
def stage : Operation → Stage
  | .writeData | .journalTxb | .journalBitmap | .journalInode => .metadata
  | .journalTxe => .commit
  | .writeBitmap | .writeInode => .checkpoint

/-- The flag of the operation in a set of operations written as a number. -/
def bit (op : Operation) : Nat := 1 <<< op.index

/-- The name of the operation in messages. -/
def name : Operation → String
  | .writeData => "write data"
  | .journalTxb => "journal txb"
  | .journalBitmap => "journal bitmap"
  | .journalInode => "journal inode"
  | .journalTxe => "journal txe"
  | .writeBitmap => "write bitmap"
  | .writeInode => "write inode"

/-- The name of the operation in structured text. -/
def label : Operation → String
  | .writeData => "WriteData"
  | .journalTxb => "JournalTxb"
  | .journalBitmap => "JournalBitmap"
  | .journalInode => "JournalInode"
  | .journalTxe => "JournalTxe"
  | .writeBitmap => "WriteBitmap"
  | .writeInode => "WriteInode"

/-- Reads a label back. -/
def ofLabel? (s : String) : Option Operation := all.find? (·.label == s)

theorem mem_all (op : Operation) : op ∈ all := by cases op <;> decide

/-- There are seven operations, so each has a bit in a byte. -/
theorem index_lt (op : Operation) : op.index < 7 := by cases op <;> decide

theorem index_inj {op o : Operation} : op.index = o.index ↔ op = o := by
  cases op <;> cases o <;> decide

theorem ofLabel?_label (op : Operation) : ofLabel? op.label = some op := by
  cases op <;> decide

end Operation

namespace Stage

/-- Every stage, in pipeline order. -/
def all : List Stage := [.metadata, .commit, .checkpoint]

/-- The position of the stage in `Stage.all`. -/
def index : Stage → Nat
  | .metadata => 0
  | .commit => 1
  | .checkpoint => 2

/-- The operations that the stage issues, in the order in which it issues them. -/
def operations (s : Stage) : List Operation := Operation.all.filter (·.stage = s)

/-- The stage that takes a write over from this one. -/
def next : Stage → Option Stage
  | .metadata => some .commit
  | .commit => some .checkpoint
  | .checkpoint => none

/-- The name of the stage in messages, and the last part of its worker's name. -/
def name : Stage → String
  | .metadata => "metadata"
  | .commit => "commit"
  | .checkpoint => "checkpoint"

/-- The name of the stage in structured text. -/
def label : Stage → String
  | .metadata => "Metadata"
  | .commit => "Commit"
  | .checkpoint => "Checkpoint"

/-- Reads a label back. -/
def ofLabel? (s : String) : Option Stage := all.find? (·.label == s)

theorem mem_all (s : Stage) : s ∈ all := by cases s <;> decide

/-- The `operations` of a stage are those that name it. -/
theorem mem_operations {s : Stage} {op : Operation} : op ∈ s.operations ↔ op.stage = s := by
  simp [operations, Operation.mem_all]

theorem index_next {s t : Stage} (h : s.next = some t) : t.index = s.index + 1 := by
  cases s <;> cases h <;> rfl

theorem ofLabel?_label (s : Stage) : ofLabel? s.label = some s := by
  cases s <;> decide

end Stage

/-- One value for each stage. -/
structure PerStage (α : Type) where
  metadata : α
  commit : α
  checkpoint : α
  deriving DecidableEq, Repr, Inhabited

namespace PerStage

variable {α β : Type}

/-- The value of a stage. -/
def get (x : PerStage α) : Stage → α
  | .metadata => x.metadata
  | .commit => x.commit
  | .checkpoint => x.checkpoint

/-- Replaces the value of one stage. -/
def set (x : PerStage α) (s : Stage) (a : α) : PerStage α :=
  match s with
  | .metadata => { x with metadata := a }
  | .commit => { x with commit := a }
  | .checkpoint => { x with checkpoint := a }

/-- The record that a function on stages describes. -/
def ofFn (f : Stage → α) : PerStage α := ⟨f .metadata, f .commit, f .checkpoint⟩

/-- The values in pipeline order. -/
def toList (x : PerStage α) : List α := [x.metadata, x.commit, x.checkpoint]

/-- To set the value of a stage changes what `get` finds for it, and nothing for the others. -/
@[simp, grind =]
theorem get_set (x : PerStage α) (s t : Stage) (a : α) :
    (x.set s a).get t = if t = s then a else x.get t := by
  cases s <;> cases t <;> rfl

@[simp, grind =]
theorem get_ofFn (f : Stage → α) (s : Stage) : (ofFn f).get s = f s := by
  cases s <;> rfl

end PerStage

end WriteAhead
