import WriteAhead.Program

/-!
# The command line

Runs the program on its arguments and the log filter in its environment, and prints what it leaves
behind. Log lines carry the time since the start of the run, in seconds.
-/

namespace WriteAhead

/-- The instant of a line: seconds and six decimals. -/
def stamp (t : Device.Instant) : String :=
  let digits := (Nat.toDigits 10 (t % 1000000)).leftpad 6 '0'
  toString (t / 1000000) ++ "." ++ String.ofList digits ++ "s"

/-- A line of the log as it is printed. -/
def printed (t : Device.Instant) (l : Log.Line) : String :=
  stamp t ++ " " ++ String.ofList (l.level.name.toList.leftpad 5 ' ') ++ " " ++ l.source.target ++
    ": " ++ l.message

end WriteAhead

/-- Runs the program and prints its output. -/
def main (args : List String) : IO UInt32 := do
  let outcome := WriteAhead.Program.run args (← IO.getEnv "RUST_LOG")
  for (t, l) in outcome.log do
    IO.println (WriteAhead.printed t l)
  for line in outcome.text do
    IO.println line
  for line in outcome.errors do
    IO.eprintln line
  return outcome.exitCode.toUInt32
