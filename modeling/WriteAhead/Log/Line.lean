/-!
# Log lines

A `Line` is a message with its severity and the part of the program that wrote it. Levels are
ordered by severity: `Level.admits` says which lines a level lets through.
-/

namespace WriteAhead.Log

/-- The severity of a message, the most severe first. -/
inductive Level where
  | error
  | warn
  | info
  | debug
  | trace
  deriving DecidableEq, Repr, Inhabited

namespace Level

/-- Every level, the most severe first. -/
def all : List Level := [.error, .warn, .info, .debug, .trace]

/-- How many levels are at least as severe. -/
def rank : Level → Nat
  | .error => 1
  | .warn => 2
  | .info => 3
  | .debug => 4
  | .trace => 5

/-- The level as it stands in a line. -/
def name : Level → String
  | .error => "ERROR"
  | .warn => "WARN"
  | .info => "INFO"
  | .debug => "DEBUG"
  | .trace => "TRACE"

/-- The level as it is asked for. -/
def keyword : Level → String
  | .error => "error"
  | .warn => "warn"
  | .info => "info"
  | .debug => "debug"
  | .trace => "trace"

/-- Whether a message of severity `l` is shown at level `max`. -/
def admits (max l : Level) : Bool := l.rank ≤ max.rank

end Level

/-- The part of the program that writes a message. -/
inductive Source where
  | driver
  | journal
  | stage
  | dispatch
  | device
  | table
  | queue
  | simulation
  deriving DecidableEq, Repr, Inhabited

/-- The target that the messages of a source carry. -/
def Source.target : Source → String
  | .driver => "tidewal"
  | .journal => "tidewal_core::journal"
  | .stage => "tidewal_core::stage"
  | .dispatch => "tidewal_core::dispatch"
  | .device => "tidewal_core::device"
  | .table => "tidewal_core::table"
  | .queue => "tidewal_core::queue"
  | .simulation => "tidewal_core::sim"

/-- A message with its severity and its source. -/
structure Line where
  level : Level
  source : Source
  message : String
  deriving DecidableEq, Repr, Inhabited

namespace Line

/-- The line without its source. -/
def text (l : Line) : String := l.level.name ++ " " ++ l.message

/-- The line with its source. -/
def sourcedText (l : Line) : String := l.level.name ++ " " ++ l.source.target ++ ": " ++ l.message

end Line

/-- The texts of the lines that a level lets through, in ascending order. -/
def shown (max : Level) (lines : List Line) : List String :=
  ((lines.filter (max.admits ·.level)).map Line.text).mergeSort (· ≤ ·)

end WriteAhead.Log
