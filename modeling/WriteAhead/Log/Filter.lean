import WriteAhead.Log.Line
import WriteAhead.Pattern.Form
import WriteAhead.Text.Cut
import WriteAhead.Text.Number

/-!
# Log filters

A filter is a list of directives, written with commas between them. A directive sets how severe a
line must be to be shown, for all lines or for those whose target starts with the directive's own.
Of the directives that concern a line the most specific decides and, among equals, the last
(`Filter.governing?`).

A directive is a level, a target, or a target and a level after an equals sign; without a level
it lets everything through. Behind its target it may name a span, and fields, in brackets. Lines
are written outside of spans and have a single field, their message, so most of these concern none.
A field may come with a value, which is a number or a pattern; it is checked all the same.
-/

namespace WriteAhead.Log

/-- The least severe level that is shown; none if nothing is. -/
abbrev Threshold := Option Level

/-- Reads a threshold: a level or `off` in any case of letters, or a number from 0, for off, up to
5. -/
def Threshold.ofText? (s : String) : Option Threshold :=
  match Text.readUnsigned s with
  | .ok n => if n = 0 then some none else (Level.all.find? (·.rank = n)).map some
  | .error _ =>
    let word := s.toLower
    if word = "off" then some none else (Level.all.find? (·.keyword = word)).map some

/-- A test on a field that a line has. -/
structure FieldTest where
  name : String
  /-- The number or the pattern that the value has to match, if it matters. -/
  value? : Option String
  deriving DecidableEq, Repr

/-- The test that a text writes: a name and perhaps an equals sign and a value. A second equals sign
ends the value. -/
def FieldTest.read (s : String) : Except Pattern.Fault FieldTest :=
  match s.splitOn "=" with
  | name :: value :: _ =>
    if Text.isDecimal value then .ok ⟨name, some value⟩
    else (fun () => ⟨name, some value⟩) <$> Pattern.check value
  | _ => .ok ⟨s, none⟩

/-- One part of a filter. -/
structure Directive where
  /-- What the target of a line starts with; none for any. -/
  target? : Option String := none
  /-- The span in which a line is written. -/
  span? : Option String := none
  fields : List FieldTest := []
  threshold : Threshold := some .trace
  deriving DecidableEq, Repr

namespace Directive

/-- Why a text is not a directive. -/
inductive Fault where
  | malformed
  /-- What stands after the equals sign is not a level. -/
  | badLevel
  /-- The value of a field is not a pattern that can be matched. -/
  | badPattern (f : Pattern.Fault)
  /-- It is to be cut inside a character. -/
  | splitCharacter
  deriving DecidableEq, Repr

/-- The fault in words. -/
def Fault.message : Fault → String
  | .malformed => "invalid filter directive"
  | .badLevel =>
    "error parsing level filter: expected one of \"off\", \"error\", \"warn\", \"info\", " ++
      "\"debug\", \"trace\", or a number 0-5"
  | .badPattern f => "invalid field filter: " ++ f.message
  | .splitCharacter => "byte index is not a char boundary"

/-! ## Reading -/

/-- A directive as it is written, and as it is scanned: without the blanks at its ends. Positions,
which are counted in bytes in the scanned text, cut the written one. -/
structure Script where
  written : List Char
  scanned : List Char

namespace Script

/-- The script of a text. -/
def ofString (s : String) : Script := ⟨s.toList, Text.trim s.toList⟩

/-- The text that some characters make, unless one of them was to be split. -/
def piece (cs? : Option (List Char)) : Except Fault String :=
  match cs? with
  | some cs => .ok (String.ofList cs)
  | none => .error .splitCharacter

/-- What is written from one position to another. -/
def cut (t : Script) (first last : Nat) : Except Fault String :=
  piece ((Text.dropBytes first t.written).bind (Text.takeBytes (last - first)))

/-- What is written from a position on. -/
def rest (t : Script) (first : Nat) : Except Fault String := piece (Text.dropBytes first t.written)

/-- What is scanned from a position on. -/
def ahead (t : Script) (first : Nat) : List Char := (Text.dropBytes first t.scanned).getD []

/-- The first position, from a given one on, at which one of some characters is scanned. -/
def find (t : Script) (first : Nat) (stops : List Char) : Nat :=
  first + Text.byteSize ((t.ahead first).takeWhile (· ∉ stops))

end Script

/-- Reads the end of a directive: nothing, or an equals sign and perhaps a level. -/
def readThreshold (t : Script) (i : Nat) : Except Fault Threshold :=
  match t.ahead i with
  | [] => .ok (some .trace)
  | '=' :: _ => do
    match ← t.rest (i + 1) with
    | "" => return some .trace
    | s => ((Threshold.ofText? s).map .ok).getD (.error .badLevel)
  | _ => .error .malformed

/-- Reads a directive from its bracket on, which stands at a position. -/
def readSpan (t : Script) (target? : Option String) (i : Nat) : Except Fault Directive := do
  let j := t.find (i + 1) [']', '\x7b']
  match t.ahead j with
  | [] => throw .malformed
  | ']' :: _ =>
    let span ← t.cut (i + 1) j
    return { target?, span? := some span, threshold := ← readThreshold t (j + 1) }
  | _ =>
    let span ← t.cut (i + 1) j
    let k := t.find (j + 1) ['\x7d']
    if t.ahead k = [] then throw .malformed
    let field ← t.cut (j + 1) k
    if field = "" then throw .malformed
    let test ← (FieldTest.read field).mapError .badPattern
    if (t.ahead (k + 1)).head? ≠ some ']' then throw .malformed
    return { target?, span? := if span = "" then none else some span, fields := [test],
             threshold := ← readThreshold t (k + 2) }

/-- Whether a target may start with a character. -/
def startsTarget (c : Char) : Bool := c ∈ ['-', ':', '_'] || Text.isAlphanumeric c

/-- Reads a directive. -/
def read (s : String) : Except Fault Directive := do
  let t := Script.ofString s
  match t.scanned.head? with
  | none => throw .malformed
  -- A bracket at the start: a span, but no target.
  | some '[' => readSpan t none 0
  | some c =>
    if !startsTarget c then throw .malformed
    let i := t.find 0 ['=', '[']
    match t.ahead i with
    | [] =>
      -- One word alone is a level if it can be one, else a target.
      match Threshold.ofText? s with
      | some threshold => return { threshold }
      | none => return { target? := some s }
    | '[' :: _ => readSpan t (some (← t.cut 0 i)) i
    | _ => return { target? := some (← t.cut 0 i), threshold := ← readThreshold t i }

/-! ## Meaning -/

/-- Whether a directive says something about a line. -/
def concerns (d : Directive) (l : Line) : Bool :=
  d.span?.isNone && d.target?.all (·.toList.isPrefixOf l.source.target.toList) &&
    d.fields.all fun f => f.name == "message" && f.value?.isNone

/-- How specific a directive is: first by the length of its target, then by the number of its
fields. -/
def specificity (d : Directive) : Nat × Nat :=
  ((d.target?.map (·.length + 1)).getD 0, d.fields.length)

/-- Whether a directive is at least as specific as another. -/
def outranks (d e : Directive) : Bool :=
  let (t, n) := d.specificity
  let (u, m) := e.specificity
  u < t || u == t && m ≤ n

/-- Whether a directive lets a line through. -/
def admits (d : Directive) (l : Line) : Bool := d.threshold.any (·.admits l.level)

end Directive

/-- Which lines are shown. -/
structure Filter where
  directives : List Directive
  deriving DecidableEq, Repr

namespace Filter

/-- The filter of some directives; without any, it shows errors alone. -/
def ofDirectives (ds : List Directive) : Filter :=
  ⟨if ds.isEmpty then [{ threshold := some .error }] else ds⟩

/-- The texts of the directives in the text of a filter. -/
def parts (s : String) : List String := (s.splitOn ",").filter (· ≠ "")

/-- Reads a filter, all of whose directives have to be right. -/
def read (s : String) : Except Directive.Fault Filter :=
  ofDirectives <$> (parts s).mapM Directive.read

/-- Reads a filter and leaves out the directives that are wrong; tells which these are, and why. -/
def readLeniently (s : String) : Filter × List (String × Directive.Fault) :=
  let read := (parts s).map fun p => (p, Directive.read p)
  (ofDirectives (read.filterMap fun (_, r) => r.toOption),
    read.filterMap fun
      | (p, .error f) => some (p, f)
      | (_, .ok _) => none)

/-- The directive that decides about a line. -/
def governing? (f : Filter) (l : Line) : Option Directive :=
  (f.directives.filter (·.concerns l)).foldl
    (fun best d => if best.all d.outranks then some d else best) none

/-- Whether a line is shown. -/
def admits (f : Filter) (l : Line) : Bool := (f.governing? l).any (·.admits l)

end Filter

end WriteAhead.Log
