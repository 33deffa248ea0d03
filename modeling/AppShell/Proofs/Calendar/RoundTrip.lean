/-
AppShell/Proofs/Calendar/RoundTrip.lean

Instants are read back from their ISO text.

Numbers that are padded with zeros are read back by as many digits
(`Stamp.digits_padded`), so that each part of the text gives the fields that it
was written from: the day, whose fields are those of a day (`Date.valid_ofDays`),
the time of the day, whose second is sixty within a leap second, and the whole
milliseconds.  Together they make the instant without what is below a
millisecond (`Instant.toMillisecond`), since the day leads back to its number
(`Date.toDays_ofDays`).  A year that is written with a sign cannot be read.

A text has a second sixty only at the end of a minute.  A leap second behind any
other second has the text of the ordinary second that comes next
(`isoDateTime_shown`), and is read as that (`not_readBack_midMinute`).

The main statement is `parse_isoDateTime`.
-/
import AppShell.Calendar.Timestamp
import AppShell.Proofs.Calendar.Days

namespace AppShell.Calendar

/-! ### Padded numbers -/

/-- A padded numeral consists of digits. -/
theorem isDigit_of_mem_padded {width n : Nat} {c : Char} (h : c ∈ padded width n) :
    c.isDigit = true := by
  rcases List.mem_append.1 h with hzero | hdigit
  · rw [List.eq_of_mem_replicate hzero]
    rfl
  · exact Nat.isDigit_of_mem_toDigits (by decide) (by decide) hdigit

/-- A number that fits into a width takes exactly that width. -/
theorem length_padded {width n : Nat} (hw : 0 < width) (h : n < Nat.pow 10 width) :
    (padded width n).length = width := by
  have hlength := (Nat.length_toDigits_le_iff (b := 10) (by decide) hw).2 h
  simp only [padded, List.length_append, List.length_replicate]
  omega

theorem width_le_length_padded (width n : Nat) : width ≤ (padded width n).length := by
  simp only [padded, List.length_append, List.length_replicate]
  omega

/-- Zeros in front do not count. -/
theorem ofDigitChars_padded (width n : Nat) : Nat.ofDigitChars 10 (padded width n) 0 = n := by
  rw [padded, Nat.ofDigitChars_append, Nat.ofDigitChars_replicate_zero, Nat.mul_zero,
    Nat.ofDigitChars_ten_toDigits]

namespace Stamp

/-- The reader of digits takes as many as it is asked for and goes on with what is behind them. -/
theorem digits_append {cs : List Char} (h : ∀ c ∈ cs, c.isDigit = true) (acc : Nat)
    (rest : List Char) :
    digits cs.length acc (cs ++ rest) = .ok (Nat.ofDigitChars 10 cs acc, rest) := by
  induction cs generalizing acc with
  | nil => rfl
  | cons c cs ih =>
    have hc : digit? c = some (c.toNat - '0'.toNat) := if_pos (h c List.mem_cons_self)
    have hnext := ih (fun d hd => h d (List.mem_cons_of_mem c hd))
      (acc * 10 + (c.toNat - '0'.toNat))
    simp only [List.length_cons, List.cons_append, digits, hc, hnext, Nat.ofDigitChars_cons,
      Nat.mul_comm]

/-- A padded number is read back. -/
theorem digits_padded {width n : Nat} (hw : 0 < width) (h : n < Nat.pow 10 width) (rest : List Char) :
    digits width 0 (padded width n ++ rest) = .ok (n, rest) := by
  have hdigits : ∀ c ∈ padded width n, c.isDigit = true := fun c => isDigit_of_mem_padded
  have hread := digits_append hdigits 0 rest
  rwa [length_padded hw h, ofDigitChars_padded] at hread

/-- A number below a hundred is read back from its two digits. -/
theorem digits_twoDigits {n : Nat} (h : n < 100) (rest : List Char) :
    digits 2 0 (twoDigits n ++ rest) = .ok (n, rest) :=
  digits_padded Nat.two_pos h rest

/-- A year that is written with a sign does not begin with a digit. -/
theorem digits_yearText_of_signed {year : Int} (h : ¬(0 ≤ year ∧ year ≤ 9999)) (rest : List Char) :
    digits 4 0 (yearText year ++ rest) = .error .invalid := by
  unfold yearText
  split
  · rfl
  · split
    · rfl
    · omega

/-! ### The parts of a stamp -/

/-- A date of the years 0 to 9999 is read back from its text, whatever is behind it. -/
theorem readDate_isoDate {d : Date} (hd : d.valid = true) (hyear : 0 ≤ d.year ∧ d.year ≤ 9999)
    (rest : List Char) :
    readDate (yearText d.year ++ '-' :: (twoDigits d.month ++ '-' :: (twoDigits d.day ++ rest))) =
      .ok (d, rest) := by
  obtain ⟨⟨-, hmonth⟩, -, hlast⟩ := Date.valid_iff.1 hd
  have hday : d.day ≤ 31 := Nat.le_trans hlast (daysInMonth_le _ _)
  have htext : yearText d.year = padded 4 d.year.natAbs := by
    rw [yearText, if_neg (by omega), if_neg (by omega)]
  have hdate : (⟨(d.year.natAbs : Int), d.month, d.day⟩ : Date) = d := by
    rw [Int.natAbs_of_nonneg hyear.1]
  have hfour : d.year.natAbs < Nat.pow 10 4 := by
    show d.year.natAbs < 10000
    omega
  have hyears := digits_padded (by decide) hfour
  have hmonths := digits_twoDigits (n := d.month) (by omega)
  have hdays := digits_twoDigits (n := d.day) (by omega)
  simp only [readDate, htext, hyears, hmonths, hdays, oneOf, List.mem_singleton, hdate, hd, bind,
    Except.bind, pure, Except.pure, if_true]

/-- The digits of a fraction count as if there were nine of them. -/
theorem fractionNanos_eq (ds : List Char) :
    fractionNanos ds = Nat.ofDigitChars 10 ((ds ++ List.replicate 9 '0').take 9) 0 := by
  have hvalue : (ds.take 9).foldl (fun acc c => acc * 10 + (c.toNat - '0'.toNat)) 0 =
      Nat.ofDigitChars 10 (ds.take 9) 0 := by
    simp only [Nat.mul_comm _ 10]
    rfl
  have hrest : (List.replicate 9 '0').take (9 - ds.length) =
      List.replicate (9 - (ds.take 9).length) '0' := by
    rw [List.take_replicate, List.length_take]
    congr 1
    omega
  rw [fractionNanos, hvalue, List.take_append, hrest, Nat.ofDigitChars_append,
    Nat.ofDigitChars_replicate_zero]
  exact Nat.mul_comm _ _

/-- Three digits of a fraction are milliseconds. -/
theorem fractionNanos_padded {ms : Nat} (h : ms < 1000) :
    fractionNanos (padded 3 ms) = ms * 1000000 := by
  have hlength : (padded 3 ms).length = 3 := length_padded (by decide) h
  have hkept : (padded 3 ms ++ List.replicate 9 '0').take 9 =
      padded 3 ms ++ List.replicate 6 '0' := by
    rw [List.take_append, hlength, List.take_of_length_le (by omega)]
    rfl
  rw [fractionNanos_eq, hkept, Nat.ofDigitChars_append, ofDigitChars_padded]
  simp [Nat.ofDigitChars]
  omega

/-- A fraction is read up to what is no digit. -/
theorem readFraction_append {ds rest : List Char} (hne : ds ≠ [])
    (hdigits : ∀ c ∈ ds, c.isDigit = true) (hrest : rest.takeWhile Char.isDigit = []) :
    readFraction ('.' :: (ds ++ rest)) = .ok (fractionNanos ds, rest) := by
  have htake : (ds ++ rest).takeWhile Char.isDigit = ds := by
    rw [List.takeWhile_append_of_pos hdigits, hrest, List.append_nil]
  have hdrop : (ds ++ rest).dropWhile Char.isDigit = rest := by
    rw [List.dropWhile_append_of_pos hdigits]
    exact List.append_cancel_left (by rw [List.takeWhile_append_dropWhile, hrest]; rfl)
  simp only [readFraction, htake, hdrop]
  split
  · exact absurd rfl hne
  · exact absurd rfl hne
  · rfl

/-- Three digits of a fraction are milliseconds. -/
theorem readFraction_padded {ms : Nat} (h : ms < 1000) :
    readFraction ('.' :: (padded 3 ms ++ ['Z'])) = .ok (ms * 1000000, ['Z']) := by
  have hne : padded 3 ms ≠ [] := by
    have hlength : (padded 3 ms).length = 3 := length_padded (by decide) h
    intro he
    rw [he] at hlength
    cases hlength
  rw [readFraction_append hne (fun c => isDigit_of_mem_padded) rfl, fractionNanos_padded h]

end Stamp

/-! ### Instants -/

namespace Instant

variable {t : Instant}

/-- The instant without what is below a millisecond. -/
def toMillisecond (t : Instant) : Instant :=
  { t with nanos := t.nanos / 1000000 * 1000000 }

/-- The nanoseconds of an instant lie in its second, or in a leap second that follows the last
second of a minute. -/
def Regular (t : Instant) : Prop :=
  t.nanos < second ∨ second ≤ t.nanos ∧ t.nanos < 2 * second ∧ t.seconds % 60 = 59

/-- Only regular instants are made from their numbers of seconds and nanoseconds. -/
theorem regular_of_valid (ht : t.valid = true) : t.Regular := by
  simp only [valid, inRange, Bool.and_eq_true, Bool.or_eq_true, decide_eq_true_eq, beq_iff_eq] at ht
  unfold Regular
  omega

/-- The second of the day lies in the day. -/
theorem secondOfDay_lt (t : Instant) : t.secondOfDay < 86400 := by
  unfold secondOfDay daySeconds
  omega

/-- The day and the second of the day make the seconds of an instant. -/
theorem seconds_eq (t : Instant) : t.dayNumber * daySeconds + t.secondOfDay = t.seconds := by
  unfold dayNumber secondOfDay daySeconds
  omega

/-- The whole milliseconds, with the second that a leap second counts on, are what is kept. -/
theorem nanos_toMillisecond (ht : t.Regular) :
    t.toMillisecond.nanos = t.millisecond * 1000000 + if t.nanos < second then 0 else second := by
  simp only [toMillisecond, millisecond]
  rcases ht with hplain | ⟨hleap, hend, -⟩
  · rw [if_pos hplain, Nat.mod_eq_of_lt hplain, Nat.add_zero]
  · rw [if_neg (Nat.not_lt.2 hleap), Nat.mod_eq_sub_mod hleap, Nat.mod_eq_of_lt (by omega)]
    unfold second at *
    omega

end Instant

/-- The time of the day is read back with its fraction, and a regular leap second as such. -/
theorem Stamp.readTime_clockTime {t : Instant} (ht : t.Regular) {cs rest : List Char} {n : Nat}
    (hfraction : Stamp.readFraction cs = .ok (n, rest)) :
    Stamp.readTime (clockTime t ++ cs) =
      .ok ((t.secondOfDay, n + if t.nanos < second then 0 else second), rest) := by
  have hday := t.secondOfDay_lt
  have hhour : t.hour < 24 := by unfold Instant.hour; omega
  have hminute : t.minute < 60 := by unfold Instant.minute; omega
  have hhours := Stamp.digits_twoDigits (n := t.hour) (by omega)
  have hminutes := Stamp.digits_twoDigits (n := t.minute) (by omega)
  -- hours, minutes and seconds make up the second of the day, leaving a leap second out
  have hsum : t.hour * 3600 + t.minute * 60 + t.secondOfDay % 60 = t.secondOfDay := by
    unfold Instant.hour Instant.minute
    omega
  rcases ht with hplain | ⟨hleap, hend, hlast⟩
  · have hsecond : t.secondOfMinute = t.secondOfDay % 60 := by
      rw [Instant.secondOfMinute, Nat.div_eq_of_lt hplain, Nat.add_zero]
    have hlt : t.secondOfDay % 60 < 60 := Nat.mod_lt _ (by decide)
    have hseconds := Stamp.digits_twoDigits (n := t.secondOfDay % 60) (by omega)
    simp [clockTime, readTime, oneOf, hsecond, hhours, hminutes, hseconds, hfraction, hhour, hminute,
      hlt, Nat.ne_of_lt hlt, hsum, hplain, bind, Except.bind, pure, Except.pure]
  · -- the leap second follows the last second of a minute
    have hminuteEnd : t.secondOfDay % 60 = 59 := by
      unfold Instant.secondOfDay daySeconds
      omega
    have hsecond : t.secondOfMinute = 60 := by
      have hone : t.nanos / second = 1 := Nat.div_eq_of_lt_le (by omega) (by omega)
      rw [Instant.secondOfMinute, hminuteEnd, hone]
    have hseconds := Stamp.digits_twoDigits (n := 60) (by decide)
    rw [hminuteEnd] at hsum
    simp [clockTime, readTime, oneOf, hsecond, hhours, hminutes, hseconds, hfraction, hhour, hminute,
      hsum, Nat.not_lt.2 hleap, bind, Except.bind, pure, Except.pure]

/-! ### Whole stamps -/

theorem length_le_byteLength (cs : List Char) : cs.length ≤ Json.byteLength cs := by
  induction cs with
  | nil => exact Nat.le_refl 0
  | cons c cs ih =>
    have := c.utf8Size_pos
    simp only [List.length_cons, Json.byteLength]
    omega

/-- The date is the year, the month and the day between dashes. -/
theorem isoDate_append (t : Instant) (rest : List Char) :
    isoDate t ++ rest = yearText t.date.year ++ '-' :: (twoDigits t.date.month ++
      '-' :: (twoDigits t.date.day ++ rest)) := by
  simp only [isoDate, List.append_assoc, List.cons_append]

/-- The ISO text is the date, a mark, the clock, the milliseconds and the mark of UTC. -/
theorem isoDateTime_eq (t : Instant) :
    isoDateTime t = isoDate t ++ 'T' :: (clockTime t ++ '.' :: (padded 3 t.millisecond ++ ['Z'])) := by
  simp only [isoDateTime, isoTime, List.append_assoc, List.cons_append]

/-- No text that begins with a date and a time is too short for a stamp. -/
theorem leastBytes_le_byteLength (t : Instant) (separator : Char) (cs : List Char) :
    Stamp.leastBytes ≤ Json.byteLength (isoDate t ++ separator :: (clockTime t ++ cs)) := by
  have hyear : 4 ≤ (yearText t.date.year).length := by
    have hpadded := width_le_length_padded 4 t.date.year.natAbs
    unfold yearText
    split
    · exact Nat.le_succ_of_le hpadded
    · split
      · exact Nat.le_succ_of_le hpadded
      · exact hpadded
  have htwo : ∀ n, 2 ≤ (twoDigits n).length := width_le_length_padded 2
  have hmonth := htwo t.date.month
  have hday := htwo t.date.day
  have hhour := htwo t.hour
  have hminute := htwo t.minute
  have hsecond := htwo t.secondOfMinute
  refine Nat.le_trans ?_ (length_le_byteLength _)
  simp only [isoDate, clockTime, Stamp.leastBytes, List.length_append, List.length_cons]
  omega

/-- A text whose year has a sign is no stamp. -/
theorem Stamp.parse_isoDateTime_of_signed {t : Instant}
    (hyear : ¬(0 ≤ t.date.year ∧ t.date.year ≤ 9999)) :
    Stamp.parse (isoDateTime t) = .error .invalid := by
  have hbytes := Nat.not_lt.2 (leastBytes_le_byteLength t 'T'
    ('.' :: (padded 3 t.millisecond ++ ['Z'])))
  have hdate : ∀ rest, readDate (isoDate t ++ rest) = .error .invalid := fun rest => by
    rw [isoDate_append]
    simp only [readDate, digits_yearText_of_signed hyear]
    rfl
  rw [isoDateTime_eq]
  simp only [parse, if_neg hbytes, hdate]
  rfl

/-- A text with the date and the time of an instant, a fraction and an offset is read as the instant
of that time, less the offset. -/
theorem Stamp.parse_append {t : Instant} (ht : t.Regular)
    (hyear : 0 ≤ t.date.year ∧ t.date.year ≤ 9999) {separator : Char}
    (hseparator : separator ∈ ['T', 't', ' ']) {cs rest : List Char} {n : Nat} {offset : Int}
    (hfraction : Stamp.readFraction cs = .ok (n, rest))
    (hoffset : Stamp.readOffset rest = .ok (offset, [])) (hday : offset.natAbs < 86400) :
    Stamp.parse (isoDate t ++ separator :: (clockTime t ++ cs)) =
      .ok ⟨t.seconds - offset, n + if t.nanos < second then 0 else second⟩ := by
  have hbytes := Nat.not_lt.2 (leastBytes_le_byteLength t separator cs)
  have hdate := readDate_isoDate (Date.valid_ofDays t.dayNumber) hyear
    (separator :: (clockTime t ++ cs))
  have hsum : t.date.toDays * daySeconds + t.secondOfDay = t.seconds := by
    rw [Instant.date, Date.toDays_ofDays, Instant.seconds_eq]
  rw [← Instant.date, ← isoDate_append] at hdate
  have htime := readTime_clockTime ht hfraction
  simp only [parse, hbytes, if_false, hdate, oneOf, hseparator, if_true, htime, hoffset, hday, hsum,
    ne_eq, not_true_eq_false, bind, Except.bind, pure, Except.pure]

/-- A text whose year has four digits is the stamp of the instant down to the millisecond. -/
theorem Stamp.parse_isoDateTime_of_regular {t : Instant} (ht : t.Regular)
    (hyear : 0 ≤ t.date.year ∧ t.date.year ≤ 9999) :
    Stamp.parse (isoDateTime t) = .ok t.toMillisecond := by
  have hms : t.millisecond < 1000 := by unfold Instant.millisecond second; omega
  rw [isoDateTime_eq, parse_append ht hyear List.mem_cons_self (readFraction_padded hms) rfl
    (by decide), ← Instant.nanos_toMillisecond ht, Int.sub_zero]
  rfl

/-- What is below a millisecond is not written. -/
theorem isoDateTime_toMillisecond (t : Instant) : isoDateTime t.toMillisecond = isoDateTime t := by
  have hquotient : t.toMillisecond.nanos / second = t.nanos / second := by
    simp only [Instant.toMillisecond, second]
    omega
  have hms : t.toMillisecond.millisecond = t.millisecond := by
    simp only [Instant.millisecond, Instant.toMillisecond, second]
    omega
  have hsecond : t.toMillisecond.secondOfMinute = t.secondOfMinute :=
    congrArg (t.secondOfDay % 60 + ·) hquotient
  simp only [isoDateTime, isoTime, clockTime, hms, hsecond]
  rfl

/-! ### Leap seconds within a minute -/

namespace Instant

variable {t : Instant}

/-- The regular instant with the same fields.  A leap second that does not follow the last second of
a minute has those of the ordinary second that comes next. -/
def shown (t : Instant) : Instant :=
  if second ≤ t.nanos ∧ t.seconds % 60 ≠ 59 then ⟨t.seconds + 1, t.nanos - second⟩ else t

/-- A leap second in the middle of a minute shows as the second behind it. -/
theorem shown_of_midMinute (hleap : second ≤ t.nanos) (hmid : t.seconds % 60 ≠ 59) :
    t.shown = ⟨t.seconds + 1, t.nanos - second⟩ :=
  if_pos ⟨hleap, hmid⟩

/-- Every other instant shows as itself. -/
theorem shown_of_not_midMinute (h : t.nanos < second ∨ t.seconds % 60 = 59) : t.shown = t := by
  refine if_neg fun ⟨hleap, hmid⟩ => ?_
  rcases h with hplain | hlast
  · exact Nat.not_lt.2 hleap hplain
  · exact hmid hlast

/-- What is shown is an ordinary second or the last one of a minute. -/
theorem regular_shown (ht : t.nanos < 2 * second) : t.shown.Regular := by
  by_cases h : second ≤ t.nanos ∧ t.seconds % 60 ≠ 59
  · rw [shown_of_midMinute h.1 h.2]
    refine .inl ?_
    show t.nanos - second < second
    omega
  · rw [shown, if_neg h]
    unfold Regular
    omega

/-- The next second of the minute lies on the same day. -/
theorem dayNumber_shown (t : Instant) : t.shown.dayNumber = t.dayNumber := by
  by_cases h : second ≤ t.nanos ∧ t.seconds % 60 ≠ 59
  · rw [shown_of_midMinute h.1 h.2]
    unfold dayNumber daySeconds
    dsimp only
    omega
  · rw [shown, if_neg h]

/-- The date shown is the one printed. -/
theorem date_shown (t : Instant) : t.shown.date = t.date :=
  congrArg Date.ofDays t.dayNumber_shown

end Instant

/-- The clock shown is the one printed. -/
theorem clockTime_shown (t : Instant) : clockTime t.shown = clockTime t := by
  by_cases h : second ≤ t.nanos ∧ t.seconds % 60 ≠ 59
  · have hday : (⟨t.seconds + 1, t.nanos - second⟩ : Instant).secondOfDay = t.secondOfDay + 1 := by
      unfold Instant.secondOfDay daySeconds
      dsimp only
      omega
    have hmid : t.secondOfDay % 60 < 59 := by
      unfold Instant.secondOfDay daySeconds
      omega
    -- the second that is counted on in the nanoseconds is counted among the seconds
    have hnanos : (t.nanos - second) / second + 1 = t.nanos / second := by
      unfold second at *
      omega
    have hhour : (t.secondOfDay + 1) / 3600 = t.secondOfDay / 3600 := by omega
    have hminute : (t.secondOfDay + 1) / 60 % 60 = t.secondOfDay / 60 % 60 := by omega
    have hsecond : (t.secondOfDay + 1) % 60 + (t.nanos - second) / second =
        t.secondOfDay % 60 + t.nanos / second := by omega
    rw [Instant.shown_of_midMinute h.1 h.2]
    simp only [clockTime, Instant.hour, Instant.minute, Instant.secondOfMinute, hday, hhour,
      hminute, hsecond]
  · rw [Instant.shown, if_neg h]

/-- An instant has the text of the regular instant with its fields. -/
theorem isoDateTime_shown (t : Instant) : isoDateTime t.shown = isoDateTime t := by
  have hms : t.shown.millisecond = t.millisecond := by
    by_cases h : second ≤ t.nanos ∧ t.seconds % 60 ≠ 59
    · rw [Instant.shown_of_midMinute h.1 h.2, Instant.millisecond, Instant.millisecond,
        Nat.mod_eq_sub_mod h.1]
    · rw [Instant.shown, if_neg h]
  simp only [isoDateTime, isoDate, isoTime, Instant.date_shown, clockTime_shown, hms]

/-! ### ISO texts -/

/-- The ISO text of an instant can be read exactly if its year has four digits, and it is then
shown as it stands.  It is read as the instant down to the millisecond, a leap second as a leap
second if it follows the last second of a minute; any other leap second is read as the ordinary
second that comes next. -/
theorem parse_isoDateTime {t : Instant} (ht : t.nanos < 2 * second) :
    ((∃ t', Stamp.parse (DateFormat.iso.dateTime t).toList = .ok t') ↔
      0 ≤ t.date.year ∧ t.date.year ≤ 9999) ∧
    (0 ≤ t.date.year ∧ t.date.year ≤ 9999 →
      (t.nanos < second ∨ t.seconds % 60 = 59 →
        Stamp.parse (DateFormat.iso.dateTime t).toList =
            .ok ⟨t.seconds, t.nanos / 1000000 * 1000000⟩ ∧
          (second ≤ t.nanos / 1000000 * 1000000 ↔ second ≤ t.nanos)) ∧
      (second ≤ t.nanos → t.seconds % 60 ≠ 59 →
        Stamp.parse (DateFormat.iso.dateTime t).toList =
          .ok ⟨t.seconds + 1, (t.nanos - second) / 1000000 * 1000000⟩) ∧
      DateFormat.iso.dateTimeOfStamp (DateFormat.iso.dateTime t) =
        .ok (DateFormat.iso.dateTime t)) := by
  have htext : (DateFormat.iso.dateTime t).toList = isoDateTime t := String.toList_ofList
  -- the regular instant with the same fields is what is read
  have hparse (hyear : 0 ≤ t.date.year ∧ t.date.year ≤ 9999) :
      Stamp.parse (isoDateTime t) = .ok t.shown.toMillisecond := by
    rw [← isoDateTime_shown]
    rw [← Instant.date_shown] at hyear
    exact Stamp.parse_isoDateTime_of_regular (Instant.regular_shown ht) hyear
  rw [DateFormat.dateTimeOfStamp, htext]
  refine ⟨⟨fun ⟨t', hread⟩ => ?_, fun hyear => ⟨_, hparse hyear⟩⟩,
    fun hyear => ⟨fun hregular => ⟨?_, ?_⟩, fun hleap hmid => ?_, ?_⟩⟩
  · -- a year with a sign cannot be read
    refine Decidable.byContradiction fun hyear => ?_
    rw [Stamp.parse_isoDateTime_of_signed hyear] at hread
    cases hread
  · rw [hparse hyear, Instant.shown_of_not_midMinute hregular]
    rfl
  · unfold second
    omega
  · rw [hparse hyear, Instant.shown_of_midMinute hleap hmid]
    rfl
  · rw [hparse hyear]
    refine congrArg (fun cs => Except.ok (String.ofList cs)) ?_
    show isoDateTime t.shown.toMillisecond = isoDateTime t
    rw [isoDateTime_toMillisecond, isoDateTime_shown]

/-- The leap second at the end of the year 2016, in the middle of a millisecond. -/
theorem parse_isoDateTime_leapSecond :
    Stamp.parse "2016-12-31T23:59:60.123Z".toList = .ok ⟨1483228799, 1123000000⟩ ∧
      DateFormat.iso.dateTimeOfStamp "2016-12-31T23:59:60.123Z" =
        .ok "2016-12-31T23:59:60.123Z" := by
  have ht : (⟨1483228799, 1123456789⟩ : Instant).nanos < 2 * second := by decide
  have hyear : 0 ≤ (⟨1483228799, 1123456789⟩ : Instant).date.year ∧
      (⟨1483228799, 1123456789⟩ : Instant).date.year ≤ 9999 := by decide
  have htext : DateFormat.iso.dateTime ⟨1483228799, 1123456789⟩ = "2016-12-31T23:59:60.123Z" := by
    decide
  obtain ⟨hparse, -, hagain⟩ := (parse_isoDateTime ht).2 hyear
  obtain ⟨hparse, -⟩ := hparse (.inr rfl)
  rw [htext] at hparse hagain
  exact ⟨hparse, hagain⟩

/-- A leap second within a minute is not read back: behind 09:05:02 it has the text of 09:05:03. -/
theorem not_readBack_midMinute :
    ¬ ∀ t : Instant, t.inRange = true → 0 ≤ t.date.year ∧ t.date.year ≤ 9999 →
      Stamp.parse (DateFormat.iso.dateTime t).toList =
        .ok ⟨t.seconds, t.nanos / 1000000 * 1000000⟩ := by
  intro h
  have hclaimed := h ⟨1709802302, 1500000000⟩ (by decide) (by decide)
  have htext : DateFormat.iso.dateTime ⟨1709802302, 1500000000⟩ = "2024-03-07T09:05:03.500Z" := by
    decide
  have hread : Stamp.parse "2024-03-07T09:05:03.500Z".toList = .ok ⟨1709802303, 500000000⟩ := rfl
  rw [htext, hread] at hclaimed
  exact absurd (congrArg Instant.seconds (Except.ok.inj hclaimed)) (by decide)

end AppShell.Calendar
