/-
AppShell/Calendar/Date.lean

Days of the proleptic Gregorian calendar.

Years extend without end in both directions and there is a year zero.  Days are
counted from the first of January 1970.  A year is found by an estimate that is
off by at most one, a month by the days that come before it.
-/
namespace AppShell.Calendar

/-- A day. -/
structure Date where
  year : Int
  month : Nat
  day : Nat
deriving DecidableEq, Repr

/-- Whether a year has 366 days. -/
def isLeap (year : Int) : Bool :=
  year % 4 == 0 && (year % 100 != 0 || year % 400 == 0)

/-- The days from the start of year zero to the start of a year. -/
def daysBeforeYear (year : Int) : Int :=
  365 * year + (year + 3) / 4 - (year + 99) / 100 + (year + 399) / 400

/-- The days from the start of a year to the start of a month. -/
def daysBeforeMonth (leap : Bool) (month : Nat) : Nat :=
  [0, 0, 31, 59, 90, 120, 151, 181, 212, 243, 273, 304, 334].getD month 365 +
    if leap && 2 < month then 1 else 0

/-- The number of days of a month. -/
def daysInMonth (leap : Bool) (month : Nat) : Nat :=
  if month = 2 then (if leap then 29 else 28)
  else if month = 4 ∨ month = 6 ∨ month = 9 ∨ month = 11 then 30
  else 31

/-- The days from the start of year zero to the first of January 1970. -/
def epochDays : Int := 719528

/-- The months from the last to the first. -/
def monthsDown : List Nat := [12, 11, 10, 9, 8, 7, 6, 5, 4, 3, 2]

/-- The month in which the day with the given number since the start of the year lies. -/
def monthOf (leap : Bool) (dayOfYear : Nat) : Nat :=
  (monthsDown.find? fun m => daysBeforeMonth leap m ≤ dayOfYear).getD 1

/-- The year in which the day with the given number since the start of year zero lies. -/
def yearOf (days : Int) : Int :=
  let estimate := 400 * days / 146097
  if days < daysBeforeYear estimate then estimate - 1
  else if daysBeforeYear (estimate + 1) ≤ days then estimate + 1
  else estimate

namespace Date

/-- Whether the fields are those of a day. -/
def valid (d : Date) : Bool :=
  1 ≤ d.month && d.month ≤ 12 && 1 ≤ d.day && d.day ≤ daysInMonth (isLeap d.year) d.month

/-- The number of the day since the first of January 1970. -/
def toDays (d : Date) : Int :=
  daysBeforeYear d.year + daysBeforeMonth (isLeap d.year) d.month + d.day - 1 - epochDays

/-- The day with the given number since the first of January 1970. -/
def ofDays (n : Int) : Date :=
  let days := n + epochDays
  let year := yearOf days
  let dayOfYear := (days - daysBeforeYear year).toNat
  let month := monthOf (isLeap year) dayOfYear
  ⟨year, month, dayOfYear - daysBeforeMonth (isLeap year) month + 1⟩

/-- The weekday, from Sunday as zero, of the day with the given number since January 1970. -/
def weekday (n : Int) : Nat :=
  ((n + 4) % 7).toNat

end Date

/-- The year that is found for a day is the one in which it lies. -/
theorem yearOf_bounds (days : Int) :
    daysBeforeYear (yearOf days) ≤ days ∧ days < daysBeforeYear (yearOf days + 1) := by
  have lower (y : Int) : 146097 * y - 800 ≤ 400 * daysBeforeYear y := by
    unfold daysBeforeYear
    omega
  have upper (y : Int) : 400 * daysBeforeYear y ≤ 146097 * y + 800 := by
    unfold daysBeforeYear
    omega
  unfold yearOf
  simp only []
  generalize he : 400 * days / 146097 = e
  split
  · rename_i h
    have := upper (e - 1)
    constructor
    · omega
    · rwa [Int.sub_add_cancel]
  · split
    · rename_i h
      have := lower (e + 1 + 1)
      constructor
      · exact h
      · omega
    · constructor <;> omega

end AppShell.Calendar
