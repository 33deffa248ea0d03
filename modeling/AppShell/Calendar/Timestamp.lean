/-
AppShell/Calendar/Timestamp.lean

Timestamps in the format of RFC 3339.

A stamp is read from left to right: a date, a `T` or a blank, a time whose
second may be sixty, a fraction, and an offset from universal time.  Each part
is judged as soon as it is complete, so of two faults the first one counts;
only a text too short for any stamp is refused before that.
-/
import AppShell.Calendar.Format
import AppShell.Json.Fault

namespace AppShell.Calendar

/-- Why a text is no timestamp. -/
inductive StampFault where
  | outOfRange
  | invalid
  | premature
  | trailing
deriving DecidableEq, Repr

/-- The message of a fault. -/
def StampFault.message : StampFault → String
  | .outOfRange => "input is out of range"
  | .invalid => "input contains invalid characters"
  | .premature => "premature end of input"
  | .trailing => "trailing input"

namespace Stamp

/-- The least number of bytes of a stamp without fraction and offset. -/
def leastBytes : Nat := 19

/-- The value of an ASCII digit. -/
def digit? (c : Char) : Option Nat :=
  if c.isDigit then some (c.toNat - '0'.toNat) else none

/-- A number of exactly the given count of digits. -/
def digits : Nat → Nat → List Char → Except StampFault (Nat × List Char)
  | 0, acc, cs => .ok (acc, cs)
  | _ + 1, _, [] => .error .invalid
  | n + 1, acc, c :: cs =>
    match digit? c with
    | some d => digits n (acc * 10 + d) cs
    | none => .error .invalid

/-- What follows one of the given characters. -/
def oneOf (allowed : List Char) : List Char → Except StampFault (List Char)
  | [] => .error .invalid
  | c :: cs => if c ∈ allowed then .ok cs else .error .invalid

/-- The date at the front, which must exist. -/
def readDate (cs : List Char) : Except StampFault (Date × List Char) := do
  let (year, cs) ← digits 4 0 cs
  let cs ← oneOf ['-'] cs
  let (month, cs) ← digits 2 0 cs
  let cs ← oneOf ['-'] cs
  let (day, cs) ← digits 2 0 cs
  let d : Date := ⟨year, month, day⟩
  if d.valid then return (d, cs) else throw .outOfRange

/-- The nanoseconds that up to nine digits of a fraction make. -/
def fractionNanos (ds : List Char) : Nat :=
  let kept := ds.take 9
  kept.foldl (fun acc c => acc * 10 + (c.toNat - '0'.toNat)) 0 * Nat.pow 10 (9 - kept.length)

/-- The fraction at the front, if there is one, in nanoseconds. -/
def readFraction : List Char → Except StampFault (Nat × List Char)
  | '.' :: cs =>
    match cs.takeWhile Char.isDigit, cs with
    | [], [] => .error .premature
    | [], _ => .error .invalid
    | ds, _ => .ok (fractionNanos ds, cs.dropWhile Char.isDigit)
  | cs => .ok (0, cs)

/-- The time at the front in seconds and nanoseconds; a second sixty counts on in nanoseconds. -/
def readTime (cs : List Char) : Except StampFault ((Nat × Nat) × List Char) := do
  let (hour, cs) ← digits 2 0 cs
  let cs ← oneOf [':'] cs
  let (minute, cs) ← digits 2 0 cs
  let cs ← oneOf [':'] cs
  let (sec, cs) ← digits 2 0 cs
  let (nanos, cs) ← readFraction cs
  let (sec, nanos) := if sec = 60 then (59, nanos + second) else (sec, nanos)
  if hour < 24 ∧ minute < 60 ∧ sec < 60 then return ((hour * 3600 + minute * 60 + sec, nanos), cs)
  else throw .outOfRange

/-- The sign at the front of an offset: whether it is a minus. -/
def readSign : List Char → Except StampFault (Bool × List Char)
  | [] => .error .premature
  | '+' :: cs => .ok (false, cs)
  | '-' :: cs => .ok (true, cs)
  | '\u2212' :: cs => .ok (true, cs)
  | _ => .error .invalid

/-- A pair of digits, for which there must be two bytes. -/
def readPair (cs : List Char) : Except StampFault ((Nat × Nat) × List Char) :=
  if Json.byteLength cs < 2 then .error .premature
  else match cs with
    | a :: b :: cs =>
      match digit? a, digit? b with
      | some a, some b => .ok ((a, b), cs)
      | _, _ => .error .invalid
    | _ => .error .invalid

/-- The offset at the front in seconds. -/
def readOffset : List Char → Except StampFault (Int × List Char)
  | 'Z' :: cs => .ok (0, cs)
  | 'z' :: cs => .ok (0, cs)
  | cs => do
    let (minus, cs) ← readSign cs
    let ((a, b), cs) ← readPair cs
    let cs ← match cs with
      | [] => throw .premature
      | ':' :: cs => pure cs
      | _ => throw .invalid
    let ((c, d), cs) ← readPair cs
    if 6 ≤ c then throw .outOfRange
    let offset : Int := (a * 10 + b) * 3600 + (c * 10 + d) * 60
    return (if minus then -offset else offset, cs)

/-- The instant of a timestamp. -/
def parse (cs : List Char) : Except StampFault Instant := do
  if Json.byteLength cs < leastBytes then throw .premature
  let (d, cs) ← readDate cs
  let cs ← oneOf ['T', 't', ' '] cs
  let ((sec, nanos), cs) ← readTime cs
  let (offset, cs) ← readOffset cs
  if cs ≠ [] then throw .trailing
  if offset.natAbs < 86400 then return ⟨d.toDays * daySeconds + sec - offset, nanos⟩
  else throw .outOfRange

end Stamp

end AppShell.Calendar

namespace AppShell.DateFormat

open AppShell.Calendar

/-- Date and time of the instant of a timestamp. -/
def dateTimeOfStamp (f : DateFormat) (raw : String) : Except StampFault String :=
  (Stamp.parse raw.toList).map f.dateTime

end AppShell.DateFormat
