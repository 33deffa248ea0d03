/-
AppShell/Calendar/Format.lean

Texts of instants.

The ISO form writes year, month and day, and the time of the day down to the
millisecond with the sign of universal time.  The system form is free of any
locale: month, day and the last two digits of the year, the time down to the
second, or both behind the name of the weekday.  A year has four digits;
outside 0 to 9999 it carries a sign as well.
-/
import AppShell.Calendar.Instant
import AppShell.Preferences.Basic

namespace AppShell.Calendar

/-- A number with zeros in front up to the given width. -/
def padded (width n : Nat) : List Char :=
  let ds := Nat.toDigits 10 n
  List.replicate (width - ds.length) '0' ++ ds

/-- A number with two digits. -/
def twoDigits (n : Nat) : List Char := padded 2 n

/-- A year with at least four digits, and with a sign unless it has exactly four. -/
def yearText (year : Int) : List Char :=
  if year < 0 then '-' :: padded 4 year.natAbs
  else if 9999 < year then '+' :: padded 4 year.natAbs
  else padded 4 year.natAbs

/-- The names of the days of the week, from Sunday. -/
def weekdayNames : List String := ["Sun", "Mon", "Tue", "Wed", "Thu", "Fri", "Sat"]

/-- The names of the months, from January. -/
def monthNames : List String :=
  ["Jan", "Feb", "Mar", "Apr", "May", "Jun", "Jul", "Aug", "Sep", "Oct", "Nov", "Dec"]

/-! ### The ISO form -/

/-- Year, month and day. -/
def isoDate (t : Instant) : List Char :=
  let d := t.date
  yearText d.year ++ '-' :: twoDigits d.month ++ '-' :: twoDigits d.day

/-- Hour, minute and second. -/
def clockTime (t : Instant) : List Char :=
  twoDigits t.hour ++ ':' :: twoDigits t.minute ++ ':' :: twoDigits t.secondOfMinute

/-- The time of the day down to the millisecond. -/
def isoTime (t : Instant) : List Char :=
  clockTime t ++ '.' :: padded 3 t.millisecond ++ ['Z']

/-- Date and time. -/
def isoDateTime (t : Instant) : List Char :=
  isoDate t ++ 'T' :: isoTime t

/-! ### The system form -/

/-- Month, day and the last two digits of the year. -/
def systemDate (t : Instant) : List Char :=
  let d := t.date
  twoDigits d.month ++ '/' :: twoDigits d.day ++ '/' :: twoDigits (d.year % 100).toNat

/-- A day of the month with a blank before a single digit. -/
def dayText (day : Nat) : List Char :=
  let ds := Nat.toDigits 10 day
  List.replicate (2 - ds.length) ' ' ++ ds

/-- Weekday, month, day, time and year. -/
def systemDateTime (t : Instant) : List Char :=
  let d := t.date
  (weekdayNames.getD (Date.weekday t.dayNumber) "").toList ++
    ' ' :: (monthNames.getD (d.month - 1) "").toList ++
    ' ' :: dayText d.day ++ ' ' :: clockTime t ++ ' ' :: yearText d.year

end AppShell.Calendar

namespace AppShell.DateFormat

open AppShell.Calendar

/-- The date of an instant. -/
def date (f : DateFormat) (t : Instant) : String :=
  String.ofList (match f with
    | .system => systemDate t
    | .iso => isoDate t)

/-- The time of an instant. -/
def time (f : DateFormat) (t : Instant) : String :=
  String.ofList (match f with
    | .system => clockTime t
    | .iso => isoTime t)

/-- Date and time of an instant. -/
def dateTime (f : DateFormat) (t : Instant) : String :=
  String.ofList (match f with
    | .system => systemDateTime t
    | .iso => isoDateTime t)

end AppShell.DateFormat
