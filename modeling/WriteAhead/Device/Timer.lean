import WriteAhead.Token

/-!
# The timer of a device

A `Span` is a whole number of microseconds. Its text uses the largest unit of which it holds at
least one, with as many decimals as the value needs.

The timer holds tokens until their deadlines. Instants are counted in microseconds, by natural
numbers; where a clock ends is up to the device. Entries are kept in the order in which they fire:
by deadline and, among equal deadlines, by the order in which they were scheduled.
-/

namespace WriteAhead

/-- A length of time in microseconds. A natural number stands for it, so no sum of spans overflows;
a span that is too long for a clock is one whose deadline `Device.names` does not name. -/
structure Span where
  micros : Nat
  deriving DecidableEq, Repr, Inhabited

namespace Span

/-- The span of a number of milliseconds. -/
def ofMillis (n : Nat) : Span := ⟨1000 * n⟩

/-- Whether the span has no length. -/
def isZero (d : Span) : Bool := d.micros == 0

/-- The decimals of `part / 10 ^ places`, after a point and without trailing zeros. -/
def decimals (part places : Nat) : String :=
  let digits := (Nat.toDigits 10 part).leftpad places '0'
  match (digits.reverse.dropWhile (· == '0')).reverse with
  | [] => ""
  | ds => "." ++ String.ofList ds

/-- The text of a span. -/
def text (d : Span) : String :=
  if d.micros = 0 then "0ns"
  else if d.micros < 1000 then s!"{d.micros}µs"
  else if d.micros < 1000000 then s!"{d.micros / 1000}" ++ decimals (d.micros % 1000) 3 ++ "ms"
  else s!"{d.micros / 1000000}" ++ decimals (d.micros % 1000000) 6 ++ "s"

end Span

namespace Device

/-- An instant, in microseconds since the start. It has no bound: `Device.last?` may set one. -/
abbrev Instant := Nat

/-- A token to be completed at an instant. -/
structure Scheduled where
  deadline : Instant
  /-- How many tokens were scheduled before. -/
  seq : Nat
  token : Token
  deriving DecidableEq, Repr

/-- Whether an entry fires before another. -/
def Scheduled.before (a b : Scheduled) : Bool :=
  a.deadline < b.deadline || a.deadline == b.deadline && a.seq < b.seq

/-- The tokens that wait for their deadlines. -/
structure Timer where
  /-- The entries, the first to fire first. -/
  pending : List Scheduled := []
  nextSeq : Nat := 0
  /-- Whether the device is being dropped: every entry is due then. -/
  closing : Bool := false
  deriving DecidableEq, Repr

namespace Timer

/-- Puts an entry before the first that fires after it. -/
def insert (e : Scheduled) : List Scheduled → List Scheduled
  | [] => [e]
  | f :: rest => if e.before f then e :: f :: rest else f :: insert e rest

/-- Schedules a token. -/
def schedule (t : Timer) (deadline : Instant) (token : Token) : Timer :=
  { t with pending := insert ⟨deadline, t.nextSeq, token⟩ t.pending, nextSeq := t.nextSeq + 1 }

/-- Whether an entry is due. -/
def isDue (t : Timer) (now : Instant) (e : Scheduled) : Bool := t.closing || e.deadline ≤ now

/-- The tokens that are due, in the order in which they fire, and the timer without them. -/
def takeDue (t : Timer) (now : Instant) : List Token × Timer :=
  ((t.pending.takeWhile (t.isDue now)).map (·.token),
    { t with pending := t.pending.dropWhile (t.isDue now) })

/-- The earliest deadline. -/
def earliest? (t : Timer) : Option Instant := t.pending.head?.map (·.deadline)

end Timer

end Device

end WriteAhead
