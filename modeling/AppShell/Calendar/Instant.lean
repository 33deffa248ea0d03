/-
AppShell/Calendar/Instant.lean

Instants of coordinated universal time.

An instant is a number of seconds since the start of 1970 and of nanoseconds
within that second.  A thousand million nanoseconds or more are a leap second,
which may follow any second.  Only an instant that is made from its two numbers
is held to the rule that a leap second ends a minute.
-/
import AppShell.Calendar.Date

namespace AppShell.Calendar

/-- Seconds since the start of 1970, and nanoseconds that count on within a leap second. -/
structure Instant where
  seconds : Int
  nanos : Nat
deriving DecidableEq, Repr

/-- The nanoseconds of a second. -/
def second : Nat := 1000000000

/-- The seconds of a day. -/
def daySeconds : Int := 86400

namespace Instant

/-- The least number of seconds of an instant. -/
def least : Int := -8334601228800

/-- The greatest number of seconds of an instant. -/
def greatest : Int := 8210266876799

/-- Whether the instant exists.  A leap second may follow any second. -/
def inRange (t : Instant) : Bool :=
  least ≤ t.seconds && t.seconds ≤ greatest && t.nanos < 2 * second

/-- Whether the instant can be made from its numbers of seconds and nanoseconds, which is refused
for a leap second that does not follow the last second of a minute. -/
def valid (t : Instant) : Bool :=
  t.inRange && (t.nanos < second || t.seconds % 60 == 59)

/-- The instant with these numbers, if it can be made from them. -/
def ofFields? (seconds nanos : Int) : Option Instant :=
  let t : Instant := ⟨seconds, nanos.toNat⟩
  if 0 ≤ nanos ∧ t.valid then some t else none

/-- The number of the day since the first of January 1970. -/
def dayNumber (t : Instant) : Int := t.seconds / daySeconds

/-- The seconds since the start of the day, leaving a leap second out. -/
def secondOfDay (t : Instant) : Nat := (t.seconds % daySeconds).toNat

/-- The day of the instant. -/
def date (t : Instant) : Date := Date.ofDays t.dayNumber

/-- The hour of the day. -/
def hour (t : Instant) : Nat := t.secondOfDay / 3600

/-- The minute of the hour. -/
def minute (t : Instant) : Nat := t.secondOfDay / 60 % 60

/-- The second of the minute, one more in a leap second. -/
def secondOfMinute (t : Instant) : Nat := t.secondOfDay % 60 + t.nanos / second

/-- The whole milliseconds of the second. -/
def millisecond (t : Instant) : Nat := t.nanos % second / 1000000

end Instant

end AppShell.Calendar
