import WriteAhead.Pattern.Mode

/-!
# Signs of patterns

A `Sign` is the smallest part of a pattern: a character, a class of characters or an edge.
`Sign.read` reads one; `Mode.admits` says which signs can be matched in a mode, and
`Mode.admitsInSet` which of them may stand in a set. There are no tables of the classes and cases of
Unicode, and a pattern about bytes may only match whole characters.
-/

namespace WriteAhead.Pattern

/-- The smallest parts of a pattern. -/
inductive Sign where
  | literal (c : Char)
  /-- A character written by two hexadecimal digits: a byte in a pattern about bytes. -/
  | code (c : Char)
  /-- Any character. -/
  | any
  /-- The digits, blanks or word characters, or all others. -/
  | kind (negated : Bool)
  /-- The start or the end of a line or of the text. -/
  | edge
  /-- A boundary of a word, or a place that is none. -/
  | wordEdge
  deriving DecidableEq, Repr

/-- The value of a hexadecimal digit. -/
def hexValue? (c : Char) : Option Nat :=
  if c.isDigit then some (c.toNat - '0'.toNat)
  else if 'a' ≤ c ∧ c ≤ 'f' then some (c.toNat - 'a'.toNat + 10)
  else if 'A' ≤ c ∧ c ≤ 'F' then some (c.toNat - 'A'.toNat + 10)
  else none

/-- The character of a code point, unless that is a surrogate or too large. -/
def charOfCode? (n : Nat) : Option Char :=
  if n < 0xd800 ∨ 0xdfff < n ∧ n < 0x110000 then some (Char.ofNat n) else none

/-- Reads as many hexadecimal digits as are asked for, behind those that were worth `n`. -/
def readCode (m : Mode) (n : Nat) : Nat → List Char → Option (Char × List Char)
  | 0, cs => (charOfCode? n).map (·, cs)
  | _ + 1, [] => none
  | k + 1, c :: cs => do readCode m (16 * n + (← hexValue? c)) k (m.skip cs)

/-- The letters that stand for control characters. -/
def controlLetters : List (Char × Char) :=
  [('a', '\x07'), ('f', '\x0c'), ('t', '\t'), ('n', '\n'), ('r', '\r'), ('v', '\x0b')]

namespace Sign

/-- Reads what follows a backslash. References to groups and Unicode properties are refused. -/
def readEscaped (m : Mode) : List Char → Option (Sign × List Char)
  | [] => none
  | c :: cs =>
    if c = 'x' then do
      let (d, rest) ← readCode m 0 2 (m.skip cs)
      return (.code d, rest)
    else if c = 'u' ∨ c = 'U' then do
      let (d, rest) ← readCode m 0 (if c = 'u' then 4 else 8) (m.skip cs)
      return (.literal d, rest)
    else if c ∈ ['d', 's', 'w'] then some (.kind false, cs)
    else if c ∈ ['D', 'S', 'W'] then some (.kind true, cs)
    else if c = 'A' ∨ c = 'z' then some (.edge, cs)
    else if c ∈ ['b', 'B', '<', '>'] then some (.wordEdge, cs)
    else
      match controlLetters.lookup c with
      | some d => some (.literal d, cs)
      | none => if c.isAlphanum ∨ '\x7f' < c then none else some (.literal c, cs)

/-- Reads a sign that stands outside of sets. -/
def read (m : Mode) : List Char → Option (Sign × List Char)
  | [] => none
  | '\\' :: cs => readEscaped m cs
  | '.' :: cs => some (.any, cs)
  | '^' :: cs | '$' :: cs => some (.edge, cs)
  | c :: cs => some (.literal c, cs)

/-- Reads a sign that stands in a set. -/
def readInSet (m : Mode) : List Char → Option (Sign × List Char)
  | [] => none
  | '\\' :: cs => readEscaped m cs
  | c :: cs => some (.literal c, cs)

/-- The character that a sign stands for. -/
def char? : Sign → Option Char
  | .literal c | .code c => some c
  | _ => none

end Sign

/-- Whether a sign can be matched in a mode. -/
def Mode.admits (m : Mode) : Sign → Bool
  | .literal _ => !(m.unicode && m.caseless)
  | .code c => if m.unicode then !m.caseless else c < '\x80'
  | .any => m.unicode
  | .kind negated => !m.unicode && !negated
  | .edge | .wordEdge => true

/-- Whether a sign can stand in a set. -/
def Mode.admitsInSet (m : Mode) : Sign → Bool
  | .literal c | .code c => if m.unicode then !m.caseless else c < '\x80'
  | .kind negated => !m.unicode && !negated
  | .any | .edge | .wordEdge => false

end WriteAhead.Pattern
