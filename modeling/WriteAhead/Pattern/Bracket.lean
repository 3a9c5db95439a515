import WriteAhead.Pattern.Sign

/-!
# Sets in brackets

A set lists characters, ranges, classes and further sets; two of the signs `&`, `-` or `~` join what
stands before them with what stands behind. `readBracket` reads a set from its bracket on and yields
its height, which is how deep the sets and the operations in it are nested.
-/

namespace WriteAhead.Pattern

/-- The height of a node with some parts; without parts it is empty, and a single part needs no node
of its own. -/
def heightOf : List Nat → Nat
  | [] => 0
  | [h] => h
  | hs => 1 + hs.foldl max 0

/-- A bracket that is open. -/
structure Bracket where
  /-- The heights of the items since the last operation, the last first. -/
  items : List Nat := []
  /-- The height of what stands before the last operation. -/
  left? : Option Nat := none
  /-- Whether nothing but dashes has come, so that a bracket or a dash stands for itself. -/
  fresh : Bool := true
  deriving DecidableEq, Repr

namespace Bracket

/-- The bracket with one more item. -/
def push (b : Bracket) (height : Nat) : Bracket :=
  { b with items := height :: b.items, fresh := false }

/-- The height of what stands in the bracket. -/
def height (b : Bracket) : Nat :=
  match b.left? with
  | none => heightOf b.items
  | some h => 1 + max h (heightOf b.items)

/-- The bracket at an operation. -/
def operate (b : Bracket) : Bracket := { left? := some b.height, fresh := false }

end Bracket

/-- The names of classes in a set. -/
def classNames : List String :=
  ["alnum", "alpha", "ascii", "blank", "cntrl", "digit", "graph", "lower", "print", "punct",
    "space", "upper", "word", "xdigit"]

/-- Reads a named class behind its bracket: whether it is negated, and the rest. -/
def readClassName? : List Char → Option (Bool × List Char)
  | ':' :: cs =>
    let (negated, cs) := match cs with
      | '^' :: rest => (true, rest)
      | _ => (false, cs)
    match cs.dropWhile (· ≠ ':') with
    | ':' :: ']' :: rest =>
      if String.ofList (cs.takeWhile (· ≠ ':')) ∈ classNames then some (negated, rest) else none
    | _ => none
  | _ => none

/-- Whether a named class can stand in a set. -/
def Mode.admitsClass (m : Mode) (negated : Bool) : Bool :=
  if m.unicode then !m.caseless else !negated

/-- Reads a bracket's start behind its sign. A negated set about bytes would hold bytes that are no
characters. -/
def openBracket (m : Mode) (cs : List Char) : Option (List Char) :=
  match m.skip cs with
  | '^' :: rest => if m.unicode then some rest else none
  | rest => some rest

/-- Reads a character, a class or a range in a set. -/
def readItem (m : Mode) (cs : List Char) : Option (List Char) := do
  let (s, rest) ← Sign.readInSet m cs
  if !m.admitsInSet s then none
  match m.skip rest with
  | [] => none
  | '-' :: behind =>
    if m.peek behind = some ']' ∨ m.peek behind = some '-' then some ('-' :: behind)
    else do
      let (t, rest) ← Sign.readInSet m (m.skip behind)
      let first ← s.char?
      let last ← t.char?
      if m.admitsInSet t ∧ first ≤ last then some rest else none
  | rest => some rest

/-- Reads the rest of a set inside of other brackets, the innermost first, in at most so many steps;
each of them reads a character at least. -/
def readSet (m : Mode) (outer : List Bracket) (b : Bracket) :
    Nat → List Char → Option (Nat × List Char)
  | 0, _ => none
  | fuel + 1, cs =>
    match m.skip cs with
    | [] => none
    | c :: rest =>
      if b.fresh ∧ (c = '-' ∨ c = ']' ∧ b.items = []) then
        if m.admitsInSet (.literal c) then
          readSet m outer { b.push 0 with fresh := c = '-' } fuel rest
        else none
      else
        match c, rest with
        | ']', rest =>
          match outer with
          | [] => some (1 + b.height, rest)
          | up :: outer => readSet m outer (up.push (1 + b.height)) fuel rest
        | '[', rest =>
          match readClassName? rest with
          | some (negated, rest) =>
            if m.admitsClass negated then readSet m outer (b.push 0) fuel rest else none
          | none => do readSet m (b :: outer) {} fuel (← openBracket m rest)
        | '&', '&' :: rest | '-', '-' :: rest | '~', '~' :: rest =>
          readSet m outer b.operate fuel rest
        | c, rest => do readSet m outer (b.push 0) fuel (← readItem m (c :: rest))

/-- Reads a set behind its bracket; yields its height and the rest. -/
def readBracket (m : Mode) (cs : List Char) : Option (Nat × List Char) := do
  readSet m [] {} (cs.length + 1) (← openBracket m cs)

end WriteAhead.Pattern
