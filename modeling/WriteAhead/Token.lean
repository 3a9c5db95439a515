import WriteAhead.Log.Line
import WriteAhead.Table.Slot
import WriteAhead.Text.Structured

/-!
# Completion tokens

With each operation that it issues, a worker gives the device a token. The device completes the
operation by giving the token back, so that an operation is completed at most once; a token that is
dropped instead leaves its stage waiting.
-/

namespace WriteAhead

/-- The right to report one issued operation complete, for the occupant of one generation. -/
structure Token where
  writeId : WriteId
  operation : Operation
  generation : Generation
  deriving DecidableEq, Repr, Inhabited

namespace Token

/-- The token in structured text. -/
def text (t : Token) : String :=
  Text.openRecord "Completion"
    [("write_id", toString t.writeId), ("op", t.operation.label),
      ("generation", toString t.generation)]

/-- The line of a token that is dropped. -/
def dropLine (t : Token) : Log.Line :=
  ⟨.warn, .device,
    s!"write {t.writeId}: {t.operation.name} dropped without completing; its stage will stall"⟩

/-- The order of tokens: by write id, then by operation, then by generation. -/
def le (a b : Token) : Bool :=
  a.writeId < b.writeId ||
    a.writeId == b.writeId &&
      (a.operation.index < b.operation.index ||
        a.operation.index == b.operation.index && a.generation ≤ b.generation)

end Token

end WriteAhead
