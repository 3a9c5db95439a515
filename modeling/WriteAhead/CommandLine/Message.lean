import WriteAhead.CommandLine.Setting
import WriteAhead.Text.Terminal

/-!
# What the command line is answered

`helpLines` and `versionLines` are the texts that the switches print, line by line. `Refusal` holds
the causes for which a command line is refused, `Refusal.message` says them in words and
`Refusal.lines` is all that is told to the user. What is quoted of the command line is quoted as
plain text: its terminal sequences are left out.
-/

namespace WriteAhead.CommandLine

/-- How the program is called. -/
def usage : String := "Usage: tidewal [OPTIONS]"

/-! ## Help and version -/

/-- The version of the program. -/
def versionNumber : String := "0.1.0"

/-- What `--version` prints. -/
def versionLines : List String := ["tidewal-server " ++ versionNumber]

/-- The lines about one option: its names, then what it is for. -/
def optionLines (short? : Option Char) (text purpose : String) : List String :=
  let short := match short? with
    | some c => String.ofList ['-', c, ',', ' ']
    | none => "    "
  ["  " ++ short ++ text, "          " ++ purpose]

/-- The lines about a setting. -/
def Setting.lines (s : Setting) : List String :=
  let default := match s.default? with
    | some value => " [default: " ++ value ++ "]"
    | none => ""
  optionLines s.shortName? s.text (s.purpose ++ default)

/-- The lines about a switch. -/
def Switch.lines (s : Switch) : List String := optionLines (some s.shortName) s.text s.purpose

/-- What `--help` prints. -/
def helpLines : List String :=
  ["Driver binary that pushes simulated writes through the tidewal journal", "", usage, "",
    "Options:"] ++
    Setting.all.flatMap Setting.lines ++ Switch.all.flatMap Switch.lines

/-! ## Refusals -/

/-- Why a command line is refused. -/
inductive Refusal where
  /-- There is no such option, or no place for the word. -/
  | unexpectedWord (word : String)
  /-- A switch takes no value. -/
  | unexpectedValue (s : Switch) (value : String)
  | missingValue (s : Setting)
  | invalidValue (s : Setting) (value : String) (f : Text.UnsignedFault)
  /-- A setting is given twice. -/
  | repeated (s : Setting)
  deriving DecidableEq, Repr

namespace Refusal

/-- The refusal in words. -/
def message : Refusal → String
  | .unexpectedWord word => "unexpected argument '" ++ Text.plain word ++ "' found"
  | .unexpectedValue s value =>
    "unexpected value '" ++ Text.plain value ++ "' for '" ++ s.text ++
      "' found; no more were expected"
  | .missingValue s => "a value is required for '" ++ s.text ++ "' but none was supplied"
  | .invalidValue s value f =>
    "invalid value '" ++ Text.plain value ++ "' for '" ++ s.text ++ "': " ++ f.message
  | .repeated s => "the argument '" ++ s.text ++ "' cannot be used multiple times"

/-- Whether the refusal reminds of the usage: not if only a value is wrong. -/
def showsUsage : Refusal → Bool
  | .missingValue _ | .invalidValue .. => false
  | .unexpectedWord _ | .unexpectedValue .. | .repeated _ => true

/-- All that is told to the user. -/
def lines (r : Refusal) : List String :=
  ["error: " ++ r.message, ""] ++ (if r.showsUsage then [usage, ""] else []) ++
    ["For more information, try '--help'."]

end Refusal

end WriteAhead.CommandLine
