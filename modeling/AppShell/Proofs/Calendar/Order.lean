/-
AppShell/Proofs/Calendar/Order.lean

ISO texts in the order of time.

A text of numbers of fixed widths, each with the same character behind it, is
compared byte by byte as the numbers are compared one after the other
(`compare_laidOut`): digits of equal count are compared as the number that they
make.  The ISO text of an instant is laid out like this as long as its year has
four digits.

Of two instants the earlier one has the lesser number in the first field in which
they differ (`Instant.order_of_fields_lt`).  For days this is so because a month
ends before a later one begins, and a year likewise (`Date.toDays_lt`); a second
sixty comes behind the last second of its minute and before the next minute.  A
leap second within a minute stands where the second stands that it is shown as
(`Instant.shown`), so its text may be greater than that of a later instant
(`not_compare_midMinute`).

The main statement is `compare_isoDateTime`.
-/
import AppShell.Proofs.Calendar.RoundTrip
import AppShell.Proofs.Text

namespace AppShell.Calendar

open Text (asciiByte toNat_asciiByte)

/-! ### Digits -/

/-- Texts that begin with parts of one length are compared by these parts first. -/
theorem compare_append {α : Type} [Ord α] {xs ys : List α} (h : xs.length = ys.length)
    (rest rest' : List α) :
    compare (xs ++ rest) (ys ++ rest') = (compare xs ys).then (compare rest rest') := by
  induction xs generalizing ys with
  | nil =>
    rw [List.length_eq_zero_iff.1 h.symm]
    rfl
  | cons x xs ih =>
    cases ys with
    | nil => cases h
    | cons y ys =>
      rw [List.cons_append, List.cons_append, List.compare_cons_cons, List.compare_cons_cons,
        ih (Nat.succ.inj h), Ordering.then_assoc]

/-- The value of a digit. -/
theorem toNat_of_isDigit {c : Char} (h : c.isDigit = true) :
    ∃ n < 10, c.toNat = n + '0'.toNat ∧ (asciiByte c).toNat = n + '0'.toNat := by
  obtain ⟨hzero, hnine⟩ := Char.isDigit_iff_toNat.1 h
  have hnine : c.toNat ≤ 57 := hnine
  have hsum : c.toNat = c.toNat - '0'.toNat + '0'.toNat := (Nat.sub_add_cancel hzero).symm
  refine ⟨c.toNat - '0'.toNat, ?_, hsum, (toNat_asciiByte (by omega)).trans hsum⟩
  show c.toNat - 48 < 10
  omega

/-- One digit more decides between numbers that were equal so far. -/
theorem compare_digit (a b : Nat) {c d : Char} (hc : c.isDigit = true) (hd : d.isDigit = true) :
    compare (10 * a + (c.toNat - '0'.toNat)) (10 * b + (d.toNat - '0'.toNat)) =
      (compare a b).then (compare (asciiByte c) (asciiByte d)) := by
  obtain ⟨n, hn, hcn, hcbyte⟩ := toNat_of_isDigit hc
  obtain ⟨m, hm, hdm, hdbyte⟩ := toNat_of_isDigit hd
  -- the bytes of digits are in the order of the digits
  have hbytes : compare (asciiByte c) (asciiByte d) = compare n m := by
    rcases Nat.lt_trichotomy n m with hlt | rfl | hgt
    · rw [Nat.compare_eq_lt.2 hlt, Std.compare_eq_lt, UInt8.lt_iff_toNat_lt]
      omega
    · rw [Std.compare_self, UInt8.toNat_inj.1 (hcbyte.trans hdbyte.symm), Std.compare_self]
    · rw [Nat.compare_eq_gt.2 hgt, Std.compare_eq_gt, UInt8.lt_iff_toNat_lt]
      omega
  rw [hbytes, hcn, hdm, Nat.add_sub_cancel, Nat.add_sub_cancel]
  -- the numbers decide unless they are equal; then the last digits do, each of which is below ten
  rcases Nat.lt_trichotomy a b with hlt | rfl | hgt
  · rw [Nat.compare_eq_lt.2 hlt]
    exact Nat.compare_eq_lt.2 (by omega)
  · rw [Std.compare_self]
    rcases Nat.lt_trichotomy n m with hlt | rfl | hgt
    · rw [Nat.compare_eq_lt.2 hlt]
      exact Nat.compare_eq_lt.2 (by omega)
    · rw [Std.compare_self, Std.compare_self]
      rfl
    · rw [Nat.compare_eq_gt.2 hgt]
      exact Nat.compare_eq_gt.2 (by omega)
  · rw [Nat.compare_eq_gt.2 hgt]
    exact Nat.compare_eq_gt.2 (by omega)

/-- Numbers with the same count of digits are compared digit by digit. -/
theorem compare_ofDigitChars {cs ds : List Char} (hcs : ∀ c ∈ cs, c.isDigit = true)
    (hds : ∀ d ∈ ds, d.isDigit = true) (hlength : cs.length = ds.length) (a b : Nat) :
    compare (Nat.ofDigitChars 10 cs a) (Nat.ofDigitChars 10 ds b) =
      (compare a b).then (compare (cs.map asciiByte) (ds.map asciiByte)) := by
  induction cs generalizing ds a b with
  | nil =>
    rw [List.length_eq_zero_iff.1 hlength.symm]
    exact Ordering.then_eq.symm
  | cons c cs ih =>
    cases ds with
    | nil => cases hlength
    | cons d ds =>
      have hrest := ih (fun e he => hcs e (List.mem_cons_of_mem c he))
        (fun e he => hds e (List.mem_cons_of_mem d he)) (Nat.succ.inj hlength)
        (10 * a + (c.toNat - '0'.toNat)) (10 * b + (d.toNat - '0'.toNat))
      rw [Nat.ofDigitChars_cons, Nat.ofDigitChars_cons, hrest,
        compare_digit a b (hcs c List.mem_cons_self) (hds d List.mem_cons_self), List.map_cons,
        List.map_cons, List.compare_cons_cons, Ordering.then_assoc]

/-- Numerals of one width are compared as their numbers are. -/
theorem compare_padded {width n m : Nat} (hw : 0 < width) (hn : n < Nat.pow 10 width)
    (hm : m < Nat.pow 10 width) :
    compare ((padded width n).map asciiByte) ((padded width m).map asciiByte) = compare n m := by
  have hlength : (padded width n).length = (padded width m).length := by
    rw [length_padded hw hn, length_padded hw hm]
  have hdigits := compare_ofDigitChars (fun c => isDigit_of_mem_padded)
    (fun c => isDigit_of_mem_padded) hlength 0 0
  rw [ofDigitChars_padded, ofDigitChars_padded] at hdigits
  exact hdigits.symm

/-! ### Numbers of fixed widths -/

/-- Numbers with as many digits as the layout says, each with its character behind it. -/
def laidOut : List (Nat × Char) → List Nat → List Char
  | (width, c) :: layout, n :: ns => padded width n ++ c :: laidOut layout ns
  | _, _ => []

/-- Whether there are as many numbers as the layout has places, and no number is too large for its
place. -/
def Fits : List (Nat × Char) → List Nat → Prop
  | [], [] => True
  | (width, c) :: layout, n :: ns =>
    0 < width ∧ n < Nat.pow 10 width ∧ c.toNat < 128 ∧ Fits layout ns
  | _, _ => False

/-- What is laid out is ASCII. -/
theorem ascii_laidOut {layout : List (Nat × Char)} {ns : List Nat} (h : Fits layout ns) :
    ∀ c ∈ laidOut layout ns, c.toNat < 128 := by
  induction layout generalizing ns with
  | nil =>
    intro c hc
    cases hc
  | cons place layout ih =>
    obtain - | ⟨n, ns⟩ := ns
    · exact h.elim
    · obtain ⟨-, -, hbehind, hrest⟩ := h
      intro c hc
      rcases List.mem_append.1 hc with hdigit | hc
      · have hnine := (Char.isDigit_iff_toNat.1 (isDigit_of_mem_padded hdigit)).2
        exact Nat.lt_of_le_of_lt hnine (by decide)
      · rcases List.mem_cons.1 hc with rfl | hc
        · exact hbehind
        · exact ih hrest c hc

/-- Texts of one layout are equally long. -/
theorem length_laidOut {layout : List (Nat × Char)} {ns ms : List Nat} (hns : Fits layout ns)
    (hms : Fits layout ms) : (laidOut layout ns).length = (laidOut layout ms).length := by
  induction layout generalizing ns ms with
  | nil => rfl
  | cons place layout ih =>
    obtain - | ⟨n, ns⟩ := ns
    · exact hns.elim
    obtain - | ⟨m, ms⟩ := ms
    · exact hms.elim
    obtain ⟨hwidth, hn, -, hns⟩ := hns
    obtain ⟨-, hm, -, hms⟩ := hms
    rw [laidOut, laidOut, List.length_append, List.length_append, List.length_cons,
      List.length_cons, length_padded hwidth hn, length_padded hwidth hm, ih hns hms]

/-- Texts of one layout are compared as their numbers, one after the other. -/
theorem compare_laidOut {layout : List (Nat × Char)} {ns ms : List Nat} (hns : Fits layout ns)
    (hms : Fits layout ms) :
    compare ((laidOut layout ns).map asciiByte) ((laidOut layout ms).map asciiByte) =
      compare ns ms := by
  induction layout generalizing ns ms with
  | nil =>
    obtain - | ⟨n, ns⟩ := ns
    · obtain - | ⟨m, ms⟩ := ms
      · rfl
      · exact hms.elim
    · exact hns.elim
  | cons place layout ih =>
    obtain - | ⟨n, ns⟩ := ns
    · exact hns.elim
    · obtain - | ⟨m, ms⟩ := ms
      · exact hms.elim
      · obtain ⟨hwidth, hn, -, hns⟩ := hns
        obtain ⟨-, hm, -, hms⟩ := hms
        -- the places have one width in both texts, so that the parts can be compared one by one
        have hlength : ((padded place.1 n).map asciiByte).length =
            ((padded place.1 m).map asciiByte).length := by
          rw [List.length_map, List.length_map, length_padded hwidth hn, length_padded hwidth hm]
        rw [laidOut, laidOut, List.map_append, List.map_append, compare_append hlength,
          compare_padded hwidth hn hm, List.map_cons, List.map_cons, List.compare_cons_cons,
          Std.compare_self, ih hns hms, List.compare_cons_cons]
        rfl

/-! ### The fields of an instant -/

/-- The places of the ISO text of an instant whose year has four digits. -/
def isoLayout : List (Nat × Char) :=
  [(4, '-'), (2, '-'), (2, 'T'), (2, ':'), (2, ':'), (2, '.'), (3, 'Z')]

namespace Instant

/-- The numbers of the ISO text of an instant. -/
def fields (t : Instant) : List Nat :=
  [t.date.year.natAbs, t.date.month, t.date.day, t.hour, t.minute, t.secondOfMinute, t.millisecond]

/-- Seconds decide between instants, and nanoseconds between instants of one second. -/
def order (a b : Instant) : Ordering :=
  (compare a.seconds b.seconds).then (compare a.nanos b.nanos)

theorem order_self (t : Instant) : t.order t = .eq := by
  rw [order, Std.compare_self, Std.compare_self]
  rfl

/-- Instants of the same place in the order are the same. -/
theorem eq_of_order {a b : Instant} (h : a.order b = .eq) : a = b := by
  obtain ⟨hseconds, hnanos⟩ := Ordering.then_eq_eq.1 h
  cases a
  cases b
  congr
  · exact Std.LawfulEqOrd.eq_of_compare hseconds
  · exact Std.LawfulEqOrd.eq_of_compare hnanos

theorem order_eq_lt {a b : Instant} :
    a.order b = .lt ↔ a.seconds < b.seconds ∨ a.seconds = b.seconds ∧ a.nanos < b.nanos := by
  rw [order, Ordering.then_eq_lt, Int.compare_eq_lt, Int.compare_eq_eq, Nat.compare_eq_lt]

/-- The order is the same from both sides. -/
theorem order_swap (a b : Instant) : (a.order b).swap = b.order a := by
  rw [order, Ordering.swap_then, ← Std.OrientedOrd.eq_swap, ← Std.OrientedOrd.eq_swap, order]

/-- Instants of different days are ordered by the fields of their days. -/
theorem order_of_date_lt {a b : Instant}
    (h : a.date.year < b.date.year ∨ a.date.year = b.date.year ∧
      (a.date.month < b.date.month ∨ a.date.month = b.date.month ∧ a.date.day < b.date.day)) :
    a.toMillisecond.order b.toMillisecond = .lt := by
  have hdays := Date.toDays_lt (Date.valid_ofDays a.dayNumber) (Date.valid_ofDays b.dayNumber) h
  rw [Date.toDays_ofDays, Date.toDays_ofDays] at hdays
  have hasec := a.seconds_eq
  have hbsec := b.seconds_eq
  have hatotal := a.secondOfDay_lt
  simp only [daySeconds] at hasec hbsec
  refine order_eq_lt.2 (.inl ?_)
  show a.seconds < b.seconds
  omega

/-- Instants of one day are ordered by their times of the day. -/
theorem order_of_time_lt {a b : Instant} (hb : b.Regular)
    (hday : a.dayNumber = b.dayNumber)
    (h : a.hour < b.hour ∨ a.hour = b.hour ∧ (a.minute < b.minute ∨ a.minute = b.minute ∧
      (a.secondOfMinute < b.secondOfMinute ∨ a.secondOfMinute = b.secondOfMinute ∧
        a.millisecond < b.millisecond))) :
    a.toMillisecond.order b.toMillisecond = .lt := by
  rw [order_eq_lt]
  have hasec := a.seconds_eq
  have hbsec := b.seconds_eq
  have hatotal := a.secondOfDay_lt
  simp only [Regular, toMillisecond, hour, minute, secondOfMinute, millisecond, second,
    daySeconds] at *
  omega

variable {a b : Instant} (ha : a.Regular) (hb : b.Regular)
  (hayear : 0 ≤ a.date.year ∧ a.date.year ≤ 9999) (hbyear : 0 ≤ b.date.year ∧ b.date.year ≤ 9999)

include hb hayear hbyear in
/-- The earlier of two instants has the lesser number in the first field in which they differ. -/
theorem order_of_fields_lt (h : compare (fields a) (fields b) = .lt) :
    a.toMillisecond.order b.toMillisecond = .lt := by
  simp only [fields, List.compare_cons_cons, List.compare_nil_nil, Ordering.then_eq_lt,
    Nat.compare_eq_lt, Nat.compare_eq_eq, and_false, or_false, reduceCtorEq] at h
  rcases h with hlt | ⟨hyear, h⟩
  · exact order_of_date_lt (.inl (by omega))
  have hyear : a.date.year = b.date.year := by omega
  rcases h with hlt | ⟨hmonth, h⟩
  · exact order_of_date_lt (.inr ⟨hyear, .inl hlt⟩)
  rcases h with hlt | ⟨hday, h⟩
  · exact order_of_date_lt (.inr ⟨hyear, .inr ⟨hmonth, hlt⟩⟩)
  refine order_of_time_lt hb ?_ h
  -- days with the same fields have the same number
  have hdate : a.date = b.date := by
    cases hd : a.date
    cases hd' : b.date
    rw [hd, hd'] at hyear hmonth hday
    congr
  rw [← Date.toDays_ofDays a.dayNumber, ← Date.toDays_ofDays b.dayNumber]
  exact congrArg Date.toDays hdate

include ha hayear in
/-- The fields of an instant fit their places. -/
theorem fits_fields : Fits isoLayout (fields a) := by
  obtain ⟨⟨-, hlastMonth⟩, -, hlastDay⟩ := Date.valid_iff.1 (Date.valid_ofDays a.dayNumber)
  have htotal := a.secondOfDay_lt
  have hyear : a.date.year.natAbs < 10000 := by omega
  have hmonth : a.date.month < 100 := Nat.lt_of_le_of_lt hlastMonth (by decide)
  have hday : a.date.day < 100 :=
    Nat.lt_of_le_of_lt (Nat.le_trans hlastDay (daysInMonth_le _ _)) (by decide)
  have hhour : a.hour < 100 := by unfold hour; omega
  have hminute : a.minute < 100 := by unfold minute; omega
  have hsecond : a.secondOfMinute < 100 := by unfold secondOfMinute Regular second at *; omega
  have hms : a.millisecond < 1000 := by unfold millisecond second; omega
  exact ⟨by decide, hyear, by decide, by decide, hmonth, by decide, by decide, hday, by decide,
    by decide, hhour, by decide, by decide, hminute, by decide, by decide, hsecond, by decide,
    by decide, hms, by decide, trivial⟩

include hayear in
/-- The ISO text is the fields of the instant, laid out. -/
theorem isoDateTime_eq_laidOut : isoDateTime a = laidOut isoLayout a.fields := by
  have htext : yearText a.date.year = padded 4 a.date.year.natAbs := by
    rw [yearText, if_neg (by omega), if_neg (by omega)]
  rw [isoDateTime_eq, isoDate_append, htext]
  simp only [laidOut, isoLayout, fields, clockTime, twoDigits, List.append_assoc, List.cons_append]

include ha hb hayear hbyear in
/-- The fields of two instants are compared as the instants down to the millisecond. -/
theorem compare_fields :
    compare (fields a) (fields b) = a.toMillisecond.order b.toMillisecond := by
  cases h : compare (fields a) (fields b) with
  | lt => exact (order_of_fields_lt hb hayear hbyear h).symm
  | gt =>
    have hswap : compare (fields b) (fields a) = .lt := by
      rw [Std.OrientedOrd.eq_swap, h]
      rfl
    rw [← order_swap, order_of_fields_lt ha hbyear hayear hswap]
    rfl
  | eq =>
    -- the same fields make the same text, which is read back
    have htext : isoDateTime a = isoDateTime b := by
      rw [isoDateTime_eq_laidOut hayear, isoDateTime_eq_laidOut hbyear,
        Std.LawfulEqOrd.eq_of_compare h]
    have hread := Stamp.parse_isoDateTime_of_regular ha hayear
    rw [htext, Stamp.parse_isoDateTime_of_regular hb hbyear] at hread
    rw [Except.ok.inj hread, order_self]

/-- The ISO text as bytes. -/
theorem bytes_dateTime {t : Instant} (ht : t.nanos < 2 * second)
    (hyear : 0 ≤ t.date.year ∧ t.date.year ≤ 9999) :
    (DateFormat.iso.dateTime t).toUTF8.toList =
      (laidOut isoLayout t.shown.fields).map asciiByte := by
  rw [← date_shown] at hyear
  rw [← Text.bytes_ofList (ascii_laidOut (fits_fields (regular_shown ht) hyear)),
    ← isoDateTime_eq_laidOut hyear, isoDateTime_shown]
  rfl

end Instant

/-- ISO texts whose years have four digits are equally long, and are compared byte by byte as the
instants that they show, down to the millisecond; so they are the same text exactly if those are the
same. -/
theorem compare_isoDateTime {a b : Instant} (ha : a.nanos < 2 * second) (hb : b.nanos < 2 * second)
    (hayear : 0 ≤ a.date.year ∧ a.date.year ≤ 9999)
    (hbyear : 0 ≤ b.date.year ∧ b.date.year ≤ 9999) :
    (DateFormat.iso.dateTime a).toUTF8.toList.length =
        (DateFormat.iso.dateTime b).toUTF8.toList.length ∧
      compare (DateFormat.iso.dateTime a).toUTF8.toList (DateFormat.iso.dateTime b).toUTF8.toList =
        a.shown.toMillisecond.order b.shown.toMillisecond ∧
      (DateFormat.iso.dateTime a = DateFormat.iso.dateTime b ↔
        a.shown.toMillisecond = b.shown.toMillisecond) := by
  have habytes := Instant.bytes_dateTime ha hayear
  have hbbytes := Instant.bytes_dateTime hb hbyear
  -- the calendar day, and so the year, is the same for what is shown
  rw [← Instant.date_shown] at hayear hbyear
  have hafits := Instant.fits_fields (Instant.regular_shown ha) hayear
  have hbfits := Instant.fits_fields (Instant.regular_shown hb) hbyear
  have hcompare : compare (DateFormat.iso.dateTime a).toUTF8.toList
      (DateFormat.iso.dateTime b).toUTF8.toList =
        a.shown.toMillisecond.order b.shown.toMillisecond := by
    rw [habytes, hbbytes, compare_laidOut hafits hbfits]
    exact Instant.compare_fields (Instant.regular_shown ha) (Instant.regular_shown hb) hayear hbyear
  refine ⟨?_, hcompare, fun htext => ?_, fun hsame => ?_⟩
  · rw [habytes, hbbytes, List.length_map, List.length_map, length_laidOut hafits hbfits]
  · refine Instant.eq_of_order ?_
    rw [← hcompare, htext, Std.compare_self]
  · refine congrArg String.ofList ?_
    calc isoDateTime a = isoDateTime a.shown.toMillisecond := by
          rw [isoDateTime_toMillisecond, isoDateTime_shown]
      _ = isoDateTime b.shown.toMillisecond := by rw [hsame]
      _ = isoDateTime b := by rw [isoDateTime_toMillisecond, isoDateTime_shown]

/-- The leap second at the end of the year 2016 and the first instant of the year 2017. -/
theorem compare_isoDateTime_leapSecond :
    (DateFormat.iso.dateTime ⟨1483228799, 1999999999⟩).toUTF8.toList.length =
        (DateFormat.iso.dateTime ⟨1483228800, 0⟩).toUTF8.toList.length ∧
      compare (DateFormat.iso.dateTime ⟨1483228799, 1999999999⟩).toUTF8.toList
        (DateFormat.iso.dateTime ⟨1483228800, 0⟩).toUTF8.toList = .lt ∧
      DateFormat.iso.dateTime ⟨1483228799, 1999999999⟩ ≠
        DateFormat.iso.dateTime ⟨1483228800, 0⟩ := by
  obtain ⟨hlength, hcompare, hsame⟩ := compare_isoDateTime
    (a := ⟨1483228799, 1999999999⟩) (b := ⟨1483228800, 0⟩) (by decide) (by decide) (by decide)
    (by decide)
  refine ⟨hlength, hcompare, fun htext => ?_⟩
  exact absurd (hsame.1 htext) (by decide)

/-- The order of time is not that of the texts for a leap second within a minute: behind 09:05:02 it
comes before 09:05:03, and its text is the greater one. -/
theorem not_compare_midMinute :
    ¬ ∀ a b : Instant, a.inRange = true → b.inRange = true →
      0 ≤ a.date.year ∧ a.date.year ≤ 9999 → 0 ≤ b.date.year ∧ b.date.year ≤ 9999 →
      compare (DateFormat.iso.dateTime a).toUTF8.toList (DateFormat.iso.dateTime b).toUTF8.toList =
        a.toMillisecond.order b.toMillisecond := by
  intro h
  have hclaimed := h ⟨1709802302, 1500000000⟩ ⟨1709802303, 0⟩ (by decide) (by decide) (by decide)
    (by decide)
  have hleap : DateFormat.iso.dateTime ⟨1709802302, 1500000000⟩ = "2024-03-07T09:05:03.500Z" := by
    decide
  have hnext : DateFormat.iso.dateTime ⟨1709802303, 0⟩ = "2024-03-07T09:05:03.000Z" := by
    decide
  rw [hleap, hnext] at hclaimed
  exact absurd hclaimed (by decide +kernel)

end AppShell.Calendar
