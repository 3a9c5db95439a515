import WriteAhead.Operation

/-!
# Sets of operations

`OpSet` has one flag for each operation. Membership is its view: `contains_insert` and
`containsAll_iff` say what the operations do to it, and `ext` that a set is determined by it.
`Stage.join` is the set of operations that a stage waits for.
-/

namespace WriteAhead

/-- A set of operations, as one flag for each. -/
structure OpSet where
  flags : BitVec 7
  deriving DecidableEq, Repr, Inhabited

namespace OpSet

/-- The empty set. -/
def empty : OpSet := ⟨0⟩

/-- The set of all operations. -/
def full : OpSet := ⟨BitVec.allOnes 7⟩

/-- Whether an operation is in the set. -/
def contains (s : OpSet) (op : Operation) : Bool := s.flags.getLsbD op.index

/-- Adds an operation. -/
def insert (s : OpSet) (op : Operation) : OpSet := ⟨s.flags ||| BitVec.twoPow 7 op.index⟩

/-- Whether every operation of `t` is in `s`. -/
def containsAll (s t : OpSet) : Bool := s.flags &&& t.flags == t.flags

/-- The operations in the set, in pipeline order. -/
def toList (s : OpSet) : List Operation := Operation.all.filter s.contains

/-- The number of operations in the set. -/
def size (s : OpSet) : Nat := s.toList.length

/-- Whether the set has no operation. -/
def isEmpty (s : OpSet) : Bool := s.flags == 0

/-- The set of the listed operations. -/
def ofList (ops : List Operation) : OpSet := ops.foldl insert empty

/-- The set in structured text: its labels in pipeline order, within braces. -/
def text (s : OpSet) : String := "\x7b" ++ ", ".intercalate (s.toList.map (·.label)) ++ "\x7d"

/-- No operation is in `empty`. -/
@[simp, grind =]
theorem contains_empty (op : Operation) : empty.contains op = false := by
  cases op <;> decide

/-- Every operation is in `full`. -/
@[simp, grind =]
theorem contains_full (op : Operation) : full.contains op = true := by
  cases op <;> decide

/-- What is in a set after `insert` was in it or is the new operation. -/
@[simp, grind =]
theorem contains_insert (s : OpSet) (op o : Operation) :
    (s.insert op).contains o = (s.contains o || decide (o = op)) := by
  have := op.index_lt
  have := o.index_lt
  by_cases h : o = op
  · subst h
    simp [contains, insert, *]
  · have : op.index ≠ o.index := fun e => h (Operation.index_inj.1 e).symm
    simp [contains, insert, BitVec.getLsbD_twoPow, h, this]

/-- Sets with the same operations are the same, since there is one bit for each of the seven. -/
@[ext]
theorem ext {s t : OpSet} (h : ∀ op, s.contains op = t.contains op) : s = t := by
  obtain ⟨a⟩ := s
  obtain ⟨b⟩ := t
  congr 1
  apply BitVec.eq_of_getLsbD_eq
  intro i hi
  have : ∃ op : Operation, op.index = i := by
    match i with
    | 0 => exact ⟨.writeData, rfl⟩
    | 1 => exact ⟨.journalTxb, rfl⟩
    | 2 => exact ⟨.journalBitmap, rfl⟩
    | 3 => exact ⟨.journalInode, rfl⟩
    | 4 => exact ⟨.journalTxe, rfl⟩
    | 5 => exact ⟨.writeBitmap, rfl⟩
    | 6 => exact ⟨.writeInode, rfl⟩
  obtain ⟨op, rfl⟩ := this
  exact h op

/-- In `ofList` are the operations of the list. -/
theorem contains_ofList {ops : List Operation} {op : Operation} :
    (ofList ops).contains op = decide (op ∈ ops) := by
  suffices ∀ s : OpSet, (ops.foldl insert s).contains op = (s.contains op || decide (op ∈ ops)) by
    simpa [ofList] using this empty
  induction ops with
  | nil => simp
  | cons o ops ih =>
    intro s
    simp [ih, Bool.or_assoc]

/-- One set has all of another by its bits (`containsAll`) exactly if it has each operation of
it. -/
theorem containsAll_iff {s t : OpSet} :
    s.containsAll t = true ↔ ∀ op, t.contains op = true → s.contains op = true := by
  simp only [containsAll, beq_iff_eq]
  constructor
  · intro h op ho
    have := congrArg (·.getLsbD op.index) h
    simp only [BitVec.getLsbD_and] at this
    simp only [contains] at ho ⊢
    simpa [ho] using this
  · intro h
    have : OpSet.mk (s.flags &&& t.flags) = t := by
      ext op
      have := h op
      simp only [contains, BitVec.getLsbD_and] at this ⊢
      cases ht : t.flags.getLsbD op.index <;> simp_all
    exact congrArg OpSet.flags this

end OpSet

/-- The operations that must all have completed before a write leaves the stage. -/
def Stage.join (s : Stage) : OpSet := OpSet.ofList s.operations

/-- The `join` of a stage is the set of its own operations. -/
theorem Stage.contains_join {s : Stage} {op : Operation} :
    s.join.contains op = decide (op.stage = s) := by
  simp [Stage.join, OpSet.contains_ofList, Stage.mem_operations]

end WriteAhead
