/-
AppShell/Proofs/Calendar/TimeValue.lean

ISO texts beside the texts of time values.

ECMAScript counts time in milliseconds since the start of 1970 and has a calendar
of its own: a time value lies in the last year that has begun (`TimeValue.IsYear`),
a year begins on the day that `TimeValue.dayFromYear` counts, and the months are
told apart by a table of their first days.  `toISOString` writes a year with four
digits from 0 to 9999, any other with a sign and six digits (`TimeValue.IsIsoText`).

Both calendars find the same fields for an instant that is no leap second
(`TimeValue.text_ofInstant`), so the ISO text of an instant differs in one thing
alone: a year with a sign has as many digits as it needs, and four at least.  The
texts are the same from year 0 to 9999 and where a year needs six digits, and not
in between.

The main statement is `isIsoText_isoDateTime`.
-/
import AppShell.Proofs.Calendar.RoundTrip

namespace AppShell.Calendar

/-! ### Time values -/

namespace TimeValue

/-- The milliseconds of a day. -/
def dayMs : Int := 86400000

/-- The greatest distance of a time value from the start of 1970. -/
def greatest : Int := 8640000000000000

/-- The day of a time value. -/
def day (tv : Int) : Int := tv / dayMs

/-- The hour of the day. -/
def hour (tv : Int) : Int := tv / 3600000 % 24

/-- The minute of the hour. -/
def minute (tv : Int) : Int := tv / 60000 % 60

/-- The second of the minute. -/
def secondOfMinute (tv : Int) : Int := tv / 1000 % 60

/-- The millisecond of the second. -/
def millisecond (tv : Int) : Int := tv % 1000

/-- The day on which a year begins. -/
def dayFromYear (year : Int) : Int :=
  365 * (year - 1970) + (year - 1969) / 4 - (year - 1901) / 100 + (year - 1601) / 400

/-- The days of a year. -/
def daysInYear (year : Int) : Int :=
  if year % 4 ≠ 0 then 365
  else if year % 100 ≠ 0 then 366
  else if year % 400 ≠ 0 then 365
  else 366

/-- A time value lies in the last year that has begun. -/
def IsYear (tv year : Int) : Prop :=
  dayFromYear year * dayMs ≤ tv ∧ ∀ later, dayFromYear later * dayMs ≤ tv → later ≤ year

/-- The day of the year, from zero. -/
def dayWithinYear (tv year : Int) : Int := day tv - dayFromYear year

/-- The days of the year on which the months begin. -/
def monthStarts (year : Int) : List Int :=
  let leap := daysInYear year - 365
  [0, 31, 59 + leap, 90 + leap, 120 + leap, 151 + leap, 181 + leap, 212 + leap, 243 + leap,
    273 + leap, 304 + leap, 334 + leap]

/-- The count of the months that have begun. -/
def month (tv year : Int) : Nat :=
  (monthStarts year).countP (· ≤ dayWithinYear tv year)

/-- The day of the month. -/
def dayOfMonth (tv year : Int) : Int :=
  dayWithinYear tv year - (monthStarts year).getD (month tv year - 1) 0 + 1

/-- A year of four digits, or with a sign and the given number of digits. -/
def yearText (width : Nat) (year : Int) : List Char :=
  if 0 ≤ year ∧ year ≤ 9999 then padded 4 year.natAbs
  else (if year < 0 then '-' else '+') :: padded width year.natAbs

/-- The text of a time value in a year, with the given number of digits behind the sign of a
year. -/
def text (width : Nat) (tv year : Int) : List Char :=
  yearText width year ++ '-' :: (twoDigits (month tv year) ++ '-' ::
    (twoDigits (dayOfMonth tv year).toNat ++ 'T' :: (twoDigits (hour tv).toNat ++ ':' ::
      (twoDigits (minute tv).toNat ++ ':' :: (twoDigits (secondOfMinute tv).toNat ++ '.' ::
        (padded 3 (millisecond tv).toNat ++ ['Z']))))))

/-- What `toISOString` gives for a time value: expanded years have six digits. -/
def IsIsoText (tv : Int) (cs : List Char) : Prop :=
  (-greatest ≤ tv ∧ tv ≤ greatest) ∧ ∃ year, IsYear tv year ∧ cs = text 6 tv year

/-- The whole milliseconds of an instant since the start of 1970. -/
def ofInstant (t : Instant) : Int :=
  (t.seconds * second + t.nanos) / 1000000

/-! ### The same calendar -/

/-- The days before a year are those of the calendar, counted from the epoch. -/
theorem dayFromYear_eq (year : Int) : dayFromYear year = daysBeforeYear year - epochDays := by
  unfold dayFromYear daysBeforeYear epochDays
  omega

/-- A year has 366 days when it is a leap year. -/
theorem daysInYear_eq (year : Int) :
    daysInYear year = if isLeap year then 366 else 365 := by
  by_cases hleap : isLeap year = true
  · rw [if_pos hleap]
    simp only [isLeap, Bool.and_eq_true, Bool.or_eq_true, beq_iff_eq, bne_iff_ne] at hleap
    unfold daysInYear
    omega
  · rw [if_neg hleap]
    simp only [isLeap, Bool.and_eq_true, Bool.or_eq_true, beq_iff_eq, bne_iff_ne] at hleap
    unfold daysInYear
    omega

/-- The last year that has begun is the one in which the day lies. -/
theorem isYear_iff {tv year : Int} : IsYear tv year ↔ year = yearOf (day tv + epochDays) := by
  have hbegun : ∀ y, dayFromYear y * dayMs ≤ tv ↔ daysBeforeYear y ≤ day tv + epochDays := by
    intro y
    rw [dayFromYear_eq]
    unfold day dayMs
    omega
  obtain ⟨hfrom, hto⟩ := yearOf_bounds (day tv + epochDays)
  -- no later year has begun
  have hlast : ∀ y, dayFromYear y * dayMs ≤ tv → y ≤ yearOf (day tv + epochDays) := by
    intro y hy
    refine Int.not_lt.1 fun hlt => ?_
    have hle : daysBeforeYear (yearOf (day tv + epochDays) + 1) ≤ daysBeforeYear y := by
      unfold daysBeforeYear
      omega
    have := (hbegun y).1 hy
    omega
  constructor
  · rintro ⟨hyear, hmax⟩
    exact Int.le_antisymm (hlast year hyear) (hmax _ ((hbegun _).2 hfrom))
  · rintro rfl
    exact ⟨(hbegun _).2 hfrom, hlast⟩

/-- The months of a year start where the calendar has them start. -/
theorem monthStarts_eq (year : Int) :
    monthStarts year = (List.range 12).map fun m => (daysBeforeMonth (isLeap year) (m + 1) : Int) := by
  rw [monthStarts, daysInYear_eq]
  cases isLeap year <;> rfl

/-- As many months have begun as the month of the day says, which is the last of them. -/
theorem month_eq {tv year : Int} {d : Nat} (hd : dayWithinYear tv year = d)
    (hlt : d < Calendar.daysInYear (isLeap year)) :
    month tv year = monthOf (isLeap year) d ∧
      dayOfMonth tv year = d - daysBeforeMonth (isLeap year) (monthOf (isLeap year) d) + 1 := by
  have hcount : ∀ leap : Bool, ∀ d : Fin (Calendar.daysInYear leap),
      ((List.range 12).map fun m => (daysBeforeMonth leap (m + 1) : Int)).countP
        (· ≤ (d.val : Int)) = monthOf leap d := by
    decide +kernel
  have hstart : ∀ leap : Bool, ∀ m : Fin 13, 1 ≤ m.val →
      ((List.range 12).map fun m => (daysBeforeMonth leap (m + 1) : Int)).getD (m.val - 1) 0 =
        daysBeforeMonth leap m := by
    decide
  obtain ⟨hlow, hhigh⟩ := (monthOf_bounds hlt).1
  have hmonth : month tv year = monthOf (isLeap year) d := by
    rw [month, hd, monthStarts_eq]
    exact hcount (isLeap year) ⟨d, hlt⟩
  refine ⟨hmonth, ?_⟩
  rw [dayOfMonth, hd, hmonth, monthStarts_eq,
    hstart (isLeap year) ⟨monthOf (isLeap year) d, Nat.lt_succ_of_le hhigh⟩ hlow]

/-! ### The same fields -/

variable {t : Instant}

theorem ofInstant_eq (t : Instant) : ofInstant t = t.seconds * 1000 + t.nanos / 1000000 := by
  unfold ofInstant second
  omega

/-- The day of a time value is the day of the instant, a leap second aside. -/
theorem day_ofInstant (ht : t.nanos < second) : day (ofInstant t) = t.dayNumber := by
  rw [ofInstant_eq]
  unfold day dayMs Instant.dayNumber daySeconds second at *
  omega

/-- The year of a time value is the year of the instant's date. -/
theorem isYear_ofInstant (ht : t.nanos < second) {year : Int} :
    IsYear (ofInstant t) year ↔ year = t.date.year := by
  rw [isYear_iff, day_ofInstant ht]
  rfl

/-- The day within the year is the one the calendar counts. -/
theorem dayWithinYear_ofInstant (ht : t.nanos < second) :
    dayWithinYear (ofInstant t) t.date.year = Date.dayOfYear t.dayNumber := by
  have hfrom := (yearOf_bounds (t.dayNumber + epochDays)).1
  have hyear : t.date.year = yearOf (t.dayNumber + epochDays) := rfl
  rw [dayWithinYear, dayFromYear_eq, day_ofInstant ht, hyear, Date.dayOfYear, Int.toNat_of_nonneg]
  · omega
  · omega

/-- Every valid instant has a time value in the range of time values. -/
theorem greatest_ofInstant (ht : t.valid = true) :
    -greatest ≤ ofInstant t ∧ ofInstant t ≤ greatest := by
  simp only [Instant.valid, Instant.inRange, Bool.and_eq_true, decide_eq_true_eq] at ht
  obtain ⟨⟨⟨hleast, hgreatest⟩, hnanos⟩, -⟩ := ht
  rw [ofInstant_eq]
  unfold Instant.least Instant.greatest greatest second at *
  omega

theorem yearText_four (year : Int) : yearText 4 year = Calendar.yearText year := by
  unfold yearText Calendar.yearText
  by_cases hplain : 0 ≤ year ∧ year ≤ 9999
  · rw [if_pos hplain, if_neg (by omega), if_neg (by omega)]
  · rw [if_neg hplain]
    by_cases hneg : year < 0
    · rw [if_pos hneg, if_pos hneg]
    · rw [if_neg hneg, if_neg hneg, if_pos (by omega)]

/-- With four digits for expanded years the text of a time value is the ISO text of the instant. -/
theorem text_ofInstant (ht : t.nanos < second) :
    text 4 (ofInstant t) t.date.year = isoDateTime t := by
  have hlt : Date.dayOfYear t.dayNumber < Calendar.daysInYear (isLeap t.date.year) :=
    Date.dayOfYear_lt t.dayNumber
  have hstart := (monthOf_bounds hlt).2.1
  -- the month is found from the day within the year, as the calendar finds it
  obtain ⟨hmonth, hday⟩ := month_eq (dayWithinYear_ofInstant ht) hlt
  have hmonth : month (ofInstant t) t.date.year = t.date.month := hmonth
  have hday : (dayOfMonth (ofInstant t) t.date.year).toNat = t.date.day := by
    show _ = Date.dayOfYear t.dayNumber - daysBeforeMonth (isLeap t.date.year)
      (monthOf (isLeap t.date.year) (Date.dayOfYear t.dayNumber)) + 1
    omega
  -- the parts of the day are quotients of milliseconds here and of seconds there
  have hhour : (hour (ofInstant t)).toNat = t.hour := by
    rw [ofInstant_eq]
    unfold hour Instant.hour Instant.secondOfDay daySeconds second at *
    omega
  have hminute : (minute (ofInstant t)).toNat = t.minute := by
    rw [ofInstant_eq]
    unfold minute Instant.minute Instant.secondOfDay daySeconds second at *
    omega
  have hsecond : (secondOfMinute (ofInstant t)).toNat = t.secondOfMinute := by
    rw [ofInstant_eq]
    unfold secondOfMinute Instant.secondOfMinute Instant.secondOfDay daySeconds second at *
    omega
  have hms : (millisecond (ofInstant t)).toNat = t.millisecond := by
    rw [ofInstant_eq]
    unfold millisecond Instant.millisecond second at *
    omega
  rw [text, yearText_four, hmonth, hday, hhour, hminute, hsecond, hms, isoDateTime_eq,
    isoDate_append, clockTime]
  simp only [List.append_assoc, List.cons_append]

/-! ### Expanded years -/

/-- Two texts of a time value differ in the digits of the year only. -/
theorem text_eq_text_iff {width width' : Nat} {tv year : Int} :
    text width tv year = text width' tv year ↔ yearText width year = yearText width' year :=
  List.append_left_inj _

/-- More zeros in front make no difference to a number that needs all the digits. -/
theorem padded_eq_padded_iff {width width' n : Nat} (hw : 0 < width) (hlt : width < width') :
    padded width n = padded width' n ↔ Nat.pow 10 (width' - 1) ≤ n := by
  have hdigits : (Nat.toDigits 10 n).length ≤ width' - 1 ↔ n < Nat.pow 10 (width' - 1) :=
    Nat.length_toDigits_le_iff (by decide) (by omega)
  constructor
  · intro h
    have hlength := congrArg List.length h
    simp only [padded, List.length_append, List.length_replicate] at hlength
    omega
  · intro h
    have hzero : width - (Nat.toDigits 10 n).length = 0 := by omega
    have hzero' : width' - (Nat.toDigits 10 n).length = 0 := by omega
    rw [padded, padded, hzero, hzero']

/-- Four digits for a year are as good as six where the year has no sign, in the years 0 to 9999,
and where it has six digits by itself. -/
theorem yearText_four_eq_six_iff {year : Int} :
    yearText 4 year = yearText 6 year ↔ 0 ≤ year ∧ year ≤ 9999 ∨ 99999 < year.natAbs := by
  by_cases hplain : 0 ≤ year ∧ year ≤ 9999
  · have hsame : yearText 4 year = yearText 6 year := by
      rw [yearText, yearText, if_pos hplain, if_pos hplain]
    exact iff_of_true hsame (.inl hplain)
  · rw [yearText, yearText, if_neg hplain, if_neg hplain, List.cons_inj_right,
      padded_eq_padded_iff (by decide) (by decide), or_iff_right hplain]
    exact Iff.rfl

/-- An instant has one ISO text in the sense of ECMAScript. -/
theorem isIsoText_iff (ht : t.valid = true) (hplain : t.nanos < second) {cs : List Char} :
    IsIsoText (ofInstant t) cs ↔ cs = text 6 (ofInstant t) t.date.year := by
  constructor
  · rintro ⟨-, year, hyear, htext⟩
    rw [htext, (isYear_ofInstant hplain).1 hyear]
  · rintro rfl
    exact ⟨greatest_ofInstant ht, t.date.year, (isYear_ofInstant hplain).2 rfl, rfl⟩

end TimeValue

open TimeValue (IsIsoText ofInstant)

/-- Every instant that is no leap second lies within the range of time values and has exactly one
text as a time value.  Its ISO text is this text, except that it has no more digits behind the sign
of a year than the year needs, and four at least; so it is this text exactly if the year has four
digits without a sign or needs six. -/
theorem isIsoText_isoDateTime {t : Instant} (ht : t.valid = true) (hplain : t.nanos < second) :
    (∀ cs, IsIsoText (ofInstant t) cs ↔ cs = TimeValue.text 6 (ofInstant t) t.date.year) ∧
    (DateFormat.iso.dateTime t).toList = TimeValue.text 4 (ofInstant t) t.date.year ∧
    (IsIsoText (ofInstant t) (DateFormat.iso.dateTime t).toList ↔
      0 ≤ t.date.year ∧ t.date.year ≤ 9999 ∨ 99999 < t.date.year.natAbs) := by
  have htext : (DateFormat.iso.dateTime t).toList = TimeValue.text 4 (ofInstant t) t.date.year := by
    rw [TimeValue.text_ofInstant hplain]
    exact String.toList_ofList
  refine ⟨fun cs => TimeValue.isIsoText_iff ht hplain, htext, ?_⟩
  rw [TimeValue.isIsoText_iff ht hplain, htext, TimeValue.text_eq_text_iff,
    TimeValue.yearText_four_eq_six_iff]

/-- A second before the year zero the two texts differ in the digits of the year. -/
theorem isIsoText_isoDateTime_beforeYearZero :
    DateFormat.iso.dateTime ⟨-62167219201, 999999999⟩ = "-0001-12-31T23:59:59.999Z" ∧
      IsIsoText (-62167219200001) "-000001-12-31T23:59:59.999Z".toList ∧
      ¬IsIsoText (-62167219200001) "-0001-12-31T23:59:59.999Z".toList := by
  obtain ⟨hiso, -, hsame⟩ :=
    isIsoText_isoDateTime (t := ⟨-62167219201, 999999999⟩) (by decide) (by decide)
  have htext : DateFormat.iso.dateTime ⟨-62167219201, 999999999⟩ = "-0001-12-31T23:59:59.999Z" := by
    decide
  refine ⟨htext, (hiso _).2 (by decide), fun h => ?_⟩
  rw [← htext] at h
  exact absurd (hsame.1 h) (by decide)

/-- The first instant of the year 10000: the sign is there, but the digits of the year are five. -/
theorem not_isIsoText_yearTenThousand :
    (⟨253402300800, 0⟩ : Instant).valid = true ∧ (⟨253402300800, 0⟩ : Instant).nanos < second ∧
      DateFormat.iso.dateTime ⟨253402300800, 0⟩ = "+10000-01-01T00:00:00.000Z" ∧
      IsIsoText (ofInstant ⟨253402300800, 0⟩) "+010000-01-01T00:00:00.000Z".toList ∧
      ¬IsIsoText (ofInstant ⟨253402300800, 0⟩)
        (DateFormat.iso.dateTime ⟨253402300800, 0⟩).toList := by
  have ht : (⟨253402300800, 0⟩ : Instant).valid = true := rfl
  have hplain : (⟨253402300800, 0⟩ : Instant).nanos < second := by decide
  have htext : DateFormat.iso.dateTime ⟨253402300800, 0⟩ = "+10000-01-01T00:00:00.000Z" := by
    decide
  refine ⟨ht, hplain, htext, (TimeValue.isIsoText_iff ht hplain).2 (by decide), fun h => ?_⟩
  rw [htext, TimeValue.isIsoText_iff ht hplain] at h
  exact absurd h (by decide)

end AppShell.Calendar
