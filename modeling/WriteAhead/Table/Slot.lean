import WriteAhead.OpSet

/-!
# Slots

A slot belongs to one write at a time, its occupant. It knows which of the occupant's operations
have completed, how many that were issued are still outstanding, and whether the checkpoint stage is
done with it. Each occupant has a generation, so that reports for earlier ones can be told apart.
-/

namespace WriteAhead

/-- Counts the occupants of a slot; the count wraps around after `2 ^ 64` of them. -/
abbrev Generation := UInt64

/-- The state of one slot. -/
structure Slot where
  /-- Whether a write occupies the slot. -/
  inUse : Bool := false
  /-- The generation of the occupant, or of the last one. -/
  generation : Generation := 0
  /-- The operations reported complete for the occupant. -/
  completed : OpSet := .empty
  /-- The operations issued for the occupant and not reported complete yet. -/
  pendingIo : Nat := 0
  /-- Whether the checkpoint stage is done with the occupant. -/
  checkpointDone : Bool := false
  deriving DecidableEq, Repr, Inhabited

namespace Slot

/-- Whether nothing keeps the occupant in the slot any more. -/
def isDrained (s : Slot) : Bool := s.checkpointDone && s.pendingIo == 0

/-- A free slot that keeps only the generation of its last occupant. -/
def reset (s : Slot) : Slot := { generation := s.generation }

/-- The slot with a new occupant. -/
def occupy (s : Slot) : Slot := { inUse := true, generation := s.generation + 1 }

/-- Whether a report is for the occupant: one without a generation is for whoever it is. -/
def accepts (s : Slot) (generation : Option Generation) : Bool :=
  s.inUse && generation.all (· == s.generation)

end Slot

end WriteAhead
