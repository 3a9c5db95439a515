/-!
# Text without terminal sequences

A terminal takes some characters for orders: control characters, and sequences that an escape
character opens. `plain` is what such a text shows: without the sequences, and without the control
characters that are no blanks. A text of visible characters is its own plain text
(`visible_eq_self`).
-/

namespace WriteAhead.Text

/-- How far a sequence has been read. -/
inductive Phase where
  /-- There is none. -/
  | ground
  /-- Behind the escape character. -/
  | escape
  /-- Behind further signs, which one more character ends. -/
  | escapeSigns
  /-- In a control sequence: parameters, which a letter ends. -/
  | control
  /-- In the head of a device string: before its parameters, in them and behind them. -/
  | deviceStart
  | deviceParameters
  | deviceSigns
  /-- In a string that only a terminator ends. -/
  | string
  /-- In an operating-system command, which a bell ends too. -/
  | command
  deriving DecidableEq, Repr

namespace Phase

/-- Whether a character is one of the blanks that a terminal obeys even in a sequence. -/
def isSpace (c : Char) : Bool := c ∈ [' ', '\t', '\n', '\x0c', '\r']

/-- Whether one of the bytes of a character is a string terminator. -/
def holdsTerminator (c : Char) : Bool := (String.utf8EncodeChar c).contains 0x9c

/-- The phase behind the escape character and another one. -/
def afterEscape (c : Char) : Phase :=
  if c < '0' then .escapeSigns
  else if c = '[' then .control
  else if c = ']' then .command
  else if c = 'P' then .deviceStart
  else if c ∈ ['X', '^', '_'] then .string
  else .ground

/-- The phase after a printable ASCII character. -/
def afterPrintable (c : Char) : Phase → Phase
  | .ground => .ground
  | .escape => afterEscape c
  | .escapeSigns => if c < '0' then .escapeSigns else .ground
  | .control => if c < '@' then .control else .ground
  | .deviceStart =>
    if c < '0' then .deviceSigns else if c < '@' then .deviceParameters else .string
  | .deviceParameters =>
    if c < '0' then .deviceSigns else if c < '<' then .deviceParameters else .string
  | .deviceSigns => if c < '0' then .deviceSigns else .string
  | .string => .string
  | .command => .command

/-- The phase after a character. -/
def next (p : Phase) (c : Char) : Phase :=
  if c = '\x1b' then .escape
  else if c = '\x18' ∨ c = '\x1a' then .ground
  else if c < ' ' ∨ c = '\x7f' then if p = .command ∧ c = '\x07' then .ground else p
  else if c < '\x7f' then afterPrintable c p
  else if p = .string ∧ holdsTerminator c then .ground
  else p

/-- Whether a character is shown in a phase. -/
def shows (p : Phase) (c : Char) : Bool :=
  match p with
  | .ground => isSpace c || (' ' ≤ c && c ≠ '\x7f')
  | .escape | .escapeSigns | .control => isSpace c && c ≠ ' '
  | _ => false

end Phase

/-- The characters that are shown from a phase on. A blank in a sequence is shown and with it all
that can be; what cannot be shown goes on with the sequence. -/
def visible (p : Phase) (showing : Bool) : List Char → List Char
  | [] => []
  | c :: cs =>
    if (if showing then Phase.ground else p).shows c then
      c :: visible (if c < '\x7f' then p else .ground) true cs
    else visible (p.next c) false cs

/-- A text without terminal sequences. -/
def plain (s : String) : String := String.ofList (visible .ground false s.toList)

/-- What is shown on the ground is visible as it is, so text without control sequences is not
changed. -/
theorem visible_eq_self {cs : List Char} (b : Bool) (h : ∀ c ∈ cs, Phase.ground.shows c = true) :
    visible .ground b cs = cs := by
  induction cs generalizing b with
  | nil => rfl
  | cons c cs ih =>
    obtain ⟨hc, hcs⟩ := List.forall_mem_cons.1 h
    simp [visible, hc, ih true hcs]

end WriteAhead.Text
