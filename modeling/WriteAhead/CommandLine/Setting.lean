import WriteAhead.Batch
import WriteAhead.Text.Number

/-!
# Settings of the command line

A setting is an option that takes a value, and a switch is one that takes none. This module says how
each of them is written and what it does to the `Options` of a run.
-/

namespace WriteAhead.CommandLine

/-- What a run is asked to do. -/
structure Options where
  plan : Plan := {}
  /-- The text of the level at which the run is logged. -/
  logLevel : String := "info"
  deriving DecidableEq, Repr

/-- An option that takes a value. -/
inductive Setting where
  | writes
  | bufferSize
  | maxRequests
  | latency
  | slowTxe
  | logLevel
  deriving DecidableEq, Repr

namespace Setting

/-- Every setting. -/
def all : List Setting := [.writes, .bufferSize, .maxRequests, .latency, .slowTxe, .logLevel]

/-- What stands after two dashes. -/
def longName : Setting → String
  | .writes => "writes"
  | .bufferSize => "buffer-size"
  | .maxRequests => "max-requests"
  | .latency => "latency-us"
  | .slowTxe => "slow-txe-ms"
  | .logLevel => "log-level"

/-- What may stand after a single dash. -/
def shortName? : Setting → Option Char
  | .writes => some 'w'
  | _ => none

/-- The name of the value. -/
def valueName (s : Setting) : String := (s.longName.replace "-" "_").toUpper

/-- The setting as messages name it. -/
def text (s : Setting) : String := "--" ++ s.longName ++ " <" ++ s.valueName ++ ">"

/-- What the setting is for. -/
def purpose : Setting → String
  | .writes => "Number of writes to submit"
  | .bufferSize => "Capacity of each stage queue"
  | .maxRequests => "Number of request slots (write ids wrap around this)"
  | .latency => "Simulated completion latency for every operation, in microseconds"
  | .slowTxe => "Delay the first journal txe by this many milliseconds"
  | .logLevel => "Log level"

/-- The value of a setting that is not given, if it has one. -/
def default? (s : Setting) : Option String :=
  let o : Options := {}
  match s with
  | .writes => some (toString o.plan.writes)
  | .bufferSize => some (toString o.plan.bufferSize)
  | .maxRequests => some (toString o.plan.maxRequests)
  | .latency | .slowTxe => none
  | .logLevel => some o.logLevel

end Setting

/-- Changes the plan of a run. -/
def Options.mapPlan (o : Options) (f : Plan → Plan) : Options := { o with plan := f o.plan }

/-- Gives a setting its value. -/
def Options.set (o : Options) (s : Setting) (value : String) :
    Except Text.UnsignedFault Options := do
  match s with
  | .logLevel => return { o with logLevel := value }
  | .writes =>
    let n ← Text.readUnsigned value
    return o.mapPlan ({ · with writes := n })
  | .bufferSize =>
    let n ← Text.readUnsigned value
    return o.mapPlan ({ · with bufferSize := n })
  | .maxRequests =>
    let n ← Text.readUnsigned value
    return o.mapPlan ({ · with maxRequests := n })
  | .latency =>
    let n ← Text.readUnsigned value
    return o.mapPlan ({ · with latency := ⟨n⟩ })
  | .slowTxe =>
    let n ← Text.readUnsigned value
    return o.mapPlan ({ · with slowTxe? := some (.ofMillis n) })

/-- An option that takes no value and decides alone what is done. -/
inductive Switch where
  | help
  | version
  deriving DecidableEq, Repr

namespace Switch

/-- Every switch. -/
def all : List Switch := [.help, .version]

/-- What stands after two dashes. -/
def longName : Switch → String
  | .help => "help"
  | .version => "version"

/-- What may stand after a single dash. -/
def shortName : Switch → Char
  | .help => 'h'
  | .version => 'V'

/-- The switch as messages name it. -/
def text (s : Switch) : String := "--" ++ s.longName

/-- What the switch is for. -/
def purpose : Switch → String
  | .help => "Print help"
  | .version => "Print version"

end Switch

end WriteAhead.CommandLine
