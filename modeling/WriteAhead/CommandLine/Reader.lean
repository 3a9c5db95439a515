import WriteAhead.CommandLine.Message

/-!
# Reading the command line

The words of a command line are read from the left. A value stands in the word of its setting, after
an equals sign or right after a short name, or it is the next word, unless that starts with a dash
and holds more. A value that stands in a word of its own is looked at when the next option comes, or
at the end; one in the word of its setting at once. So of two faults the first to be looked at wins.
-/

namespace WriteAhead.CommandLine

/-- What a command line asks for. -/
inductive Request where
  | run (o : Options)
  | help
  | version
  deriving DecidableEq, Repr

/-- What a switch asks for. -/
def Switch.request : Switch → Request
  | .help => .help
  | .version => .version

/-- The form of a word. -/
inductive Word where
  /-- Two dashes alone: no option follows. -/
  | terminator
  /-- Two dashes and a name, perhaps with a value after an equals sign. -/
  | long (name : String) (value? : Option String)
  /-- A dash and a name of one character, with what stands behind it. -/
  | short (name : Char) (rest : List Char)
  | plain
  deriving DecidableEq, Repr

/-- The form of a word. -/
def Word.ofString (s : String) : Word :=
  match s.toList with
  | ['-', '-'] => .terminator
  | '-' :: '-' :: cs =>
    let name := String.ofList (cs.takeWhile (· ≠ '='))
    match cs.dropWhile (· ≠ '=') with
    | _ :: value => .long name (some (String.ofList value))
    | [] => .long name none
  | '-' :: c :: cs => .short c cs
  | _ => .plain

/-- The value in the word of a short name: what follows, after an equals sign if there is one. -/
def attached? : List Char → Option String
  | [] => none
  | '=' :: value => some (String.ofList value)
  | value => some (String.ofList value)

/-- What has been read of a command line. -/
structure Reading where
  options : Options := {}
  /-- The settings that have their values. -/
  given : List Setting := []
  /-- A setting whose value is to be looked at, with the value if it is there. -/
  pending? : Option (Setting × Option String) := none
  deriving DecidableEq, Repr

namespace Reading

/-- Gives a setting its value, once. -/
def accept (r : Reading) (s : Setting) (value? : Option String) : Except Refusal Reading :=
  match value? with
  | none => .error (.missingValue s)
  | some value =>
    if s ∈ r.given then .error (.repeated s)
    else
      match r.options.set s value with
      | .ok options => .ok { r with options, given := s :: r.given }
      | .error f => .error (.invalidValue s value f)

/-- Looks at the pending value. -/
def settle (r : Reading) : Except Refusal Reading :=
  match r.pending? with
  | none => .ok r
  | some (s, value?) => { r with pending? := none }.accept s value?

/-- A setting comes, perhaps with its value. -/
def begin (r : Reading) (s : Setting) (value? : Option String) : Except Refusal Reading := do
  let r ← r.settle
  match value? with
  | some value => r.accept s (some value)
  | none => return { r with pending? := some (s, none) }

/-- A word comes that is a value, if there is a setting without one. -/
def fill (r : Reading) (word : String) : Except Refusal Reading :=
  match r.pending? with
  | some (s, none) => .ok { r with pending? := some (s, some word) }
  | _ => .error (.unexpectedWord word)

end Reading

/-- Reads the words that follow what has been read. -/
def readWords (r : Reading) : List String → Except Refusal Request
  | [] => do return .run (← r.settle).options
  | word :: rest =>
    match Word.ofString word with
    | .terminator =>
      match rest with
      | [] => do return .run (← r.settle).options
      | next :: _ => .error (.unexpectedWord next)
    | .long name value? =>
      match Setting.all.find? (·.longName = name), Switch.all.find? (·.longName = name) with
      | some s, _ => do readWords (← r.begin s value?) rest
      | none, some s =>
        match value? with
        | some value => .error (.unexpectedValue s value)
        | none => do
          -- The value before the switch may still be wrong.
          let _ ← r.settle
          return s.request
      | none, none => .error (.unexpectedWord ("--" ++ name))
    | .short c cs =>
      match Setting.all.find? (·.shortName? = some c), Switch.all.find? (·.shortName = c) with
      | some s, _ => do readWords (← r.begin s (attached? cs)) rest
      | none, some s => do
        let _ ← r.settle
        return s.request
      | none, none => .error (.unexpectedWord (String.ofList ['-', c]))
    | .plain => do readWords (← r.fill word) rest

/-- Reads a command line. -/
def read (words : List String) : Except Refusal Request := readWords {} words

end WriteAhead.CommandLine
