import WriteAhead.CommandLine.Reader
import WriteAhead.Log.Filter

/-!
# The program

`Program.run` is all that the program does with its arguments and its environment: it reads the
command line, runs the batch that it asks for and shows the lines that the log filter lets through.
-/

namespace WriteAhead.Program

/-- What a run of the program leaves behind. -/
structure Outcome where
  exitCode : Nat := 0
  /-- The log, each line with its instant. -/
  log : List (Device.Instant × Log.Line) := []
  /-- What is printed and is no log line. -/
  text : List String := []
  /-- The lines of the error output. -/
  errors : List String := []
  deriving DecidableEq, Repr

/-- The lines before the journal is started. -/
def greeting : List Log.Line :=
  [Batch.Event.said "Starting tidewal",
    Batch.Event.said ("Version: " ++ CommandLine.versionNumber)]

/-- The filter that shows one level, for the batch and for the journal. -/
def filterText (level : String) : String := "tidewal=" ++ level ++ ",tidewal_core=" ++ level

/-- The complaint about a directive that is left out. -/
def complaint (part : String) (f : Log.Directive.Fault) : String :=
  "ignoring `" ++ part ++ "`: " ++ f.message

/-- The filter of a run, and the complaints about it. The environment decides, if what it says can
be read; else the command line does, without its directives that are wrong. A directive that would
be cut inside a character ends the program, with the lines of the error output. -/
def filterOf (environment? : Option String) (level : String) :
    Except (List String) (Log.Filter × List String) :=
  match environment?.map Log.Filter.read with
  | some (.ok f) => .ok (f, [])
  | some (.error .splitCharacter) => .error [Log.Directive.Fault.splitCharacter.message]
  | _ =>
    let (f, faults) := Log.Filter.readLeniently (filterText level)
    let complaints := fun (part, fault) => complaint part fault
    match faults.dropWhile (·.2 ≠ .splitCharacter) with
    | [] => .ok (f, faults.map complaints)
    | (_, fault) :: _ =>
      .error ((faults.takeWhile (·.2 ≠ .splitCharacter)).map complaints ++ [fault.message])

/-- Runs a batch. -/
def runBatch (o : CommandLine.Options) (environment? : Option String) : Outcome :=
  match filterOf environment? o.logLevel with
  | .error lines => { exitCode := 101, errors := lines }
  | .ok (filter, complaints) =>
    let (events, failure?) := Batch.run o.plan
    let lines := greeting.map ((0 : Device.Instant), ·) ++
      events.flatMap fun (t, e) => e.lines.map (t, ·)
    { exitCode := if failure?.isSome then 1 else 0
      log := lines.filter fun (_, l) => filter.admits l
      errors := complaints ++ match failure?.map (·.lines) with
        | some (first :: rest) => ("Error: " ++ first) :: rest
        | _ => [] }

/-- Runs the program on the words of its command line and the filter in its environment, if any. -/
def run (words : List String) (environment? : Option String) : Outcome :=
  match CommandLine.read words with
  | .error r => { exitCode := 2, errors := r.lines }
  | .ok .help => { text := CommandLine.helpLines }
  | .ok .version => { text := CommandLine.versionLines }
  | .ok (.run o) => runBatch o environment?

end WriteAhead.Program
