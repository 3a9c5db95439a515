import WriteAhead.Pattern.Bracket
import WriteAhead.Text.Alphanumeric

/-!
# The form of a pattern

A pattern is made of signs, sets and groups, which can be repeated; a bar separates alternatives.
Flags change the mode up to the end of the group they stand in. `check` says whether a text is a
pattern that can be matched: its form has to be right, it may not be nested too deeply, and it may
not ask for the boundaries of Unicode words.
-/

namespace WriteAhead.Pattern

/-- Why a text is not a pattern that can be matched. -/
inductive Fault where
  | malformed
  | wordEdges
  deriving DecidableEq, Repr

/-- The fault in words. -/
def Fault.message : Fault → String
  | .malformed => "error building NFA"
  | .wordEdges =>
    "unsupported regex feature for DFAs: cannot build DFAs for regexes with Unicode word " ++
      "boundaries; switch to ASCII word boundaries, or heuristically enable Unicode word " ++
      "boundaries or use a different regex engine"

/-- A part of an alternative. -/
structure Part where
  height : Nat
  /-- Whether it can be repeated; flags cannot. -/
  repeatable : Bool := true
  deriving DecidableEq, Repr

/-- The height of an alternative with some parts. -/
def heightOfParts (ps : List Part) : Nat := heightOf (ps.map (·.height))

/-- What stands before a group that is open. -/
structure Group where
  mode : Mode
  /-- The parts of the alternative it stands in, the last first. -/
  parts : List Part
  /-- The heights of the alternatives before that one. -/
  alternatives : List Nat
  deriving DecidableEq, Repr

/-- How far a pattern has been read. -/
structure Reading where
  rest : List Char
  mode : Mode := {}
  /-- The parts of the alternative that is read, the last first. -/
  parts : List Part := []
  /-- The heights of the alternatives before it in its group. -/
  alternatives : List Nat := []
  /-- The groups that are open, the innermost first. -/
  groups : List Group := []
  /-- The names of the groups so far. -/
  names : List String := []
  /-- Whether there is a boundary of Unicode words. -/
  wordEdges : Bool := false
  deriving DecidableEq, Repr

/-- How deeply a pattern may be nested. -/
def maxHeight : Nat := 250

/-- Whether a character can stand in the name of a group. -/
def namesGroup (c : Char) : Bool := c ∈ ['_', '.', '[', ']'] || Text.isAlphanumeric c

/-- Reads the name of a group up to the angle bracket behind it. -/
def readName (cs : List Char) : Option (String × List Char) :=
  match cs.takeWhile (· ≠ '>'), cs.dropWhile (· ≠ '>') with
  | c :: name, _ :: rest =>
    if (c = '_' || Text.isLetter c) && name.all namesGroup then
      some (String.ofList (c :: name), rest)
    else none
  | _, _ => none

namespace Reading

/-- The height of the group that is read. -/
def height (r : Reading) : Nat := heightOf (heightOfParts r.parts :: r.alternatives)

/-- The reading with one more part. -/
def push (r : Reading) (p : Part) (rest : List Char) : Reading :=
  { r with parts := p :: r.parts, rest }

/-- The reading at the start of a group. -/
def openGroup (r : Reading) (mode : Mode) (rest : List Char) : Reading :=
  { r with rest, mode, parts := [], alternatives := []
           groups := ⟨r.mode, r.parts, r.alternatives⟩ :: r.groups }

/-- The reading at the start of a group that has a name, which no other group may have. -/
def openNamed (r : Reading) (cs : List Char) : Option Reading := do
  let (name, rest) ← readName cs
  if name ∈ r.names then none
  else some { r.openGroup r.mode rest with names := name :: r.names }

/-- Reads what follows a question mark at the start of a group: flags, for the group or for what
follows. -/
def openFlagged (r : Reading) (cs : List Char) : Option Reading := do
  let (mode, flags, terminator, rest) ← readFlags r.mode [] cs
  if terminator = ':' then some (r.openGroup mode rest)
  else if flags = [] then none
  else some { r.push ⟨0, false⟩ rest with mode }

/-- Reads what follows a parenthesis. Groups that look ahead or behind are refused. -/
def startGroup (r : Reading) (cs : List Char) : Option Reading :=
  match r.mode.skip cs with
  | '?' :: '=' :: _ | '?' :: '!' :: _ | '?' :: '<' :: '=' :: _ | '?' :: '<' :: '!' :: _ => none
  | '?' :: 'P' :: '<' :: rest | '?' :: '<' :: rest => r.openNamed rest
  | '?' :: rest => r.openFlagged rest
  | rest => some (r.openGroup r.mode rest)

/-- Ends the innermost group. -/
def endGroup (r : Reading) (rest : List Char) : Option Reading :=
  match r.groups with
  | [] => none
  | g :: groups =>
    some { r with rest, groups, mode := g.mode, alternatives := g.alternatives
                  parts := ⟨1 + r.height, true⟩ :: g.parts }

/-- Repeats the last part; a question mark makes the repetition reluctant. -/
def repeatLast (r : Reading) (cs : List Char) : Option Reading :=
  match r.parts with
  | ⟨h, true⟩ :: parts =>
    let rest := match cs with
      | '?' :: rest => rest
      | _ => cs
    some { r with parts := ⟨1 + h, true⟩ :: parts, rest }
  | _ => none

/-- Reads a sign. -/
def readSign (r : Reading) : Option Reading := do
  let (s, rest) ← Sign.read r.mode r.rest
  if r.mode.admits s then
    some { r.push ⟨0, true⟩ rest with
             wordEdges := r.wordEdges || (s = .wordEdge && r.mode.unicode) }
  else none

/-- Reads the next part. The counts of a repetition end with a brace, which no field can hold. -/
def step (r : Reading) : Option Reading :=
  match r.rest with
  | '(' :: rest => r.startGroup rest
  | ')' :: rest => r.endGroup rest
  | '|' :: rest =>
    some { r with rest, parts := [], alternatives := heightOfParts r.parts :: r.alternatives }
  | '[' :: rest => do
    let (h, rest) ← readBracket r.mode rest
    return r.push ⟨h, true⟩ rest
  | '?' :: rest | '*' :: rest | '+' :: rest => r.repeatLast rest
  | '\x7b' :: _ => none
  | _ => r.readSign

/-- Reads all that is left, in at most so many steps; each of them reads a character at least. -/
def run : Nat → Reading → Option Reading
  | 0, _ => none
  | fuel + 1, r =>
    match r.mode.skip r.rest with
    | [] => some { r with rest := [] }
    | rest => do run fuel (← { r with rest }.step)

end Reading

/-- Whether a text is a pattern that can be matched. -/
def check (s : String) : Except Fault Unit :=
  match Reading.run (s.length + 1) { rest := s.toList } with
  | none => .error .malformed
  | some r =>
    if r.groups ≠ [] ∨ maxHeight < r.height then .error .malformed
    else if r.wordEdges then .error .wordEdges
    else .ok ()

end WriteAhead.Pattern
