import WriteAhead.Text.Cut

/-!
# Modes of patterns

A pattern is read in a `Mode`, which the flags in the pattern change. In spaced mode `skip` passes
over what stands between the signs: blanks, and comments that last to the end of the line.
-/

namespace WriteAhead.Pattern

/-- How a pattern is read. -/
structure Mode where
  /-- Whether the pattern is about characters; else it is about bytes. -/
  unicode : Bool := true
  /-- Whether a letter stands for its other case too. -/
  caseless : Bool := false
  /-- Whether blanks and comments mean nothing. -/
  spaced : Bool := false
  deriving DecidableEq, Repr

/-- What follows the blanks and comments; the text may begin inside a comment. -/
def skipGap (inComment : Bool) : List Char → List Char
  | [] => []
  | c :: cs =>
    if inComment then skipGap (c ≠ '\n') cs
    else if c = '#' then skipGap true cs
    else if Text.isBlank c then skipGap false cs
    else c :: cs

namespace Mode

/-- What follows the blanks and comments, if they mean nothing. -/
def skip (m : Mode) (cs : List Char) : List Char := if m.spaced then skipGap false cs else cs

/-- The character that counts as the next one; of a comment only its sign is passed over. -/
def peek (m : Mode) (cs : List Char) : Option Char :=
  if m.spaced then
    match cs.dropWhile Text.isBlank with
    | '#' :: rest => (rest.dropWhile Text.isBlank).head?.or cs.head?
    | [] => cs.head?
    | c :: _ => some c
  else cs.head?

/-- The mode with a flag on or off; the flags that are not named here do not change the reading. -/
def set (m : Mode) (flag : Char) (on : Bool) : Mode :=
  match flag with
  | 'u' => { m with unicode := on }
  | 'i' => { m with caseless := on }
  | 'x' => { m with spaced := on }
  | _ => m

end Mode

/-- The flags, and the dash that puts those behind it off. -/
def flagSigns : List Char := ['i', 'm', 's', 'U', 'u', 'R', 'x', '-']

/-- Reads flags up to the colon or the parenthesis that ends them, after the signs seen before, the
last first; yields the mode that they set, the signs, the end and the rest. No sign comes twice, and
none may be missing behind a dash. -/
def readFlags (m : Mode) (seen : List Char) :
    List Char → Option (Mode × List Char × Char × List Char)
  | [] => none
  | c :: cs =>
    if c = ':' ∨ c = ')' then
      if seen.head? = some '-' then none else some (m, seen, c, cs)
    else if c ∈ flagSigns ∧ c ∉ seen then
      readFlags (m.set c ('-' ∉ seen)) (c :: seen) cs
    else none

end WriteAhead.Pattern
