/-
AppShell/Proofs/Calendar/Renderings.lean

The texts of an instant agree.

An instant has six texts, three in each form.  Here they are read without regard
to how they were written: a mark divides a text, a run of digits is a number
(`numbers?`), and the text of date and time in the system form consists of words
(`words`).  The day that the ISO date shows (`isoDay?`) is the day of the instant,
and the other texts show the same day, the same time of the day and the weekday
that follows the one shown a day earlier.

A text is read part by part, since no part has the mark that ends it:
`numbers?_padded_append` takes a number off the front, `words_append` a word.

The main statement is `texts_agree`.
-/
import AppShell.Proofs.Calendar.RoundTrip
import AppShell.Proofs.Text

namespace AppShell.Calendar

open Text

/-! ### What a text shows -/

/-- The number that a run of digits shows. -/
def number? (cs : List Char) : Option Nat :=
  if cs ≠ [] ∧ cs.all Char.isDigit = true then some (Nat.ofDigitChars 10 cs 0) else none

/-- The numbers that a text shows between the given marks. -/
def numbers? (mark : Char) (cs : List Char) : Option (List Nat) :=
  (pieces mark cs).mapM number?

/-- The sign that a text begins with, and what follows it. -/
def sign : List Char → Int × List Char
  | '-' :: cs => (-1, cs)
  | '+' :: cs => (1, cs)
  | cs => (1, cs)

/-- The year that a text shows, with or without a sign. -/
def year? (cs : List Char) : Option Int :=
  (number? (sign cs).2).map fun n : Nat => (sign cs).1 * (n : Int)

/-- The day that a text of year, month and day shows. -/
def isoDay? (cs : List Char) : Option Date :=
  match numbers? '-' (sign cs).2 with
  | some [year, month, day] => some ⟨(sign cs).1 * year, month, day⟩
  | _ => none

/-- The words of a text. -/
def words (cs : List Char) : List (List Char) :=
  (pieces ' ' cs).filter (· ≠ [])

/-- A weekday, a day and a time of the day. -/
structure SystemReading where
  weekday : String
  date : Date
  clock : String
deriving DecidableEq

/-- What a text of weekday, month, day, time and year shows. -/
def systemReading? (cs : List Char) : Option SystemReading :=
  match words cs with
  | [weekday, month, day, clock, year] => do
    let month ← monthNames.idxOf? (String.ofList month)
    let day ← number? day
    let year ← year? year
    return ⟨String.ofList weekday, ⟨year, month + 1, day⟩, String.ofList clock⟩
  | _ => none

/-- Whether a weekday is the one after another. -/
def NextWeekday (name next : String) : Prop :=
  (name, next) ∈ weekdayNames.zip weekdayNames.rotateLeft

instance (name next : String) : Decidable (NextWeekday name next) :=
  inferInstanceAs (Decidable ((name, next) ∈ _))

/-! ### Numbers -/

theorem padded_ne_nil {width n : Nat} (hw : 0 < width) : padded width n ≠ [] :=
  List.ne_nil_of_length_pos (Nat.lt_of_lt_of_le hw (width_le_length_padded width n))

/-- A padded numeral is read as the number it was printed from. -/
theorem number?_padded {width n : Nat} (hw : 0 < width) : number? (padded width n) = some n := by
  have hall : (padded width n).all Char.isDigit = true :=
    List.all_eq_true.2 fun c => isDigit_of_mem_padded
  rw [number?, if_pos ⟨padded_ne_nil hw, hall⟩, ofDigitChars_padded]

theorem number?_toDigits (n : Nat) : number? (Nat.toDigits 10 n) = some n := by
  have hall : (Nat.toDigits 10 n).all Char.isDigit = true :=
    List.all_eq_true.2 fun c => Nat.isDigit_of_mem_toDigits (by decide) (by decide)
  rw [number?, if_pos ⟨Nat.toDigits_ne_nil, hall⟩, Nat.ofDigitChars_ten_toDigits]

/-- A mark that is no digit stands in no padded numeral. -/
theorem not_mem_padded {mark : Char} (hmark : mark.isDigit = false) (width n : Nat) :
    mark ∉ padded width n := by
  intro h
  rw [isDigit_of_mem_padded h] at hmark
  cases hmark

/-- A numeral without the mark is one field. -/
theorem numbers?_padded {mark : Char} (hmark : mark.isDigit = false) {width n : Nat}
    (hw : 0 < width) : numbers? mark (padded width n) = some [n] := by
  rw [numbers?, pieces_eq_splitOn, List.splitOn_eq_singleton (not_mem_padded hmark width n)]
  simp [number?_padded hw]

/-- A number is taken off the front. -/
theorem numbers?_padded_append {mark : Char} (hmark : mark.isDigit = false) {width n : Nat}
    (hw : 0 < width) (rest : List Char) :
    numbers? mark (padded width n ++ mark :: rest) = (numbers? mark rest).map (n :: ·) := by
  rw [numbers?, pieces_eq_splitOn,
    List.splitOn_append_cons_self_of_not_mem (not_mem_padded hmark width n), List.mapM_cons,
    number?_padded hw, numbers?, pieces_eq_splitOn]
  cases (rest.splitOn mark).mapM number? <;> rfl

/-- Three numerals between two marks are three fields, read as the numbers they were printed
from. -/
theorem numbers?_three {mark : Char} (hmark : mark.isDigit = false) {width : Nat} (hw : 0 < width)
    (a b c : Nat) :
    numbers? mark (padded width a ++ mark :: (twoDigits b ++ mark :: twoDigits c)) =
      some [a, b, c] := by
  rw [numbers?_padded_append hmark hw, twoDigits, twoDigits,
    numbers?_padded_append hmark Nat.two_pos, numbers?_padded hmark Nat.two_pos]
  rfl

/-! ### Years and days -/

/-- The sign of a year is read off in front of its digits. -/
theorem sign_yearText (year : Int) (rest : List Char) :
    sign (yearText year ++ rest) =
      (if year < 0 then -1 else 1, padded 4 year.natAbs ++ rest) := by
  unfold yearText
  by_cases hneg : year < 0
  · rw [if_pos hneg, if_pos hneg]
    rfl
  · rw [if_neg hneg, if_neg hneg]
    by_cases hlong : 9999 < year
    · rw [if_pos hlong]
      rfl
    · rw [if_neg hlong]
      -- without a sign the text begins with a digit
      rcases h : padded 4 year.natAbs with - | ⟨c, cs⟩
      · exact absurd h (padded_ne_nil (by decide))
      · have hmem : c ∈ padded 4 year.natAbs := h ▸ List.mem_cons_self
        have hc : c.isDigit = true := isDigit_of_mem_padded hmem
        unfold sign
        split
        · next he =>
          cases he
          cases hc
        · next he =>
          cases he
          cases hc
        · rfl

theorem sign_mul_natAbs (year : Int) :
    (if year < 0 then -1 else 1) * (year.natAbs : Int) = year := by
  by_cases hneg : year < 0
  · rw [if_pos hneg]
    omega
  · rw [if_neg hneg]
    omega

/-- A year is read back from its text, also when it is negative or has more than four digits. -/
theorem year?_yearText (year : Int) : year? (yearText year) = some year := by
  have hsign := sign_yearText year []
  rw [List.append_nil, List.append_nil] at hsign
  rw [year?, hsign, number?_padded (by decide), Option.map_some, sign_mul_natAbs]

/-- The ISO date shows the day of the instant. -/
theorem isoDay?_isoDate (t : Instant) : isoDay? (isoDate t) = some t.date := by
  have hsign := sign_yearText t.date.year
    ('-' :: (twoDigits t.date.month ++ '-' :: twoDigits t.date.day))
  have htext : isoDate t =
      yearText t.date.year ++ '-' :: (twoDigits t.date.month ++ '-' :: twoDigits t.date.day) := by
    simp only [isoDate, List.append_assoc, List.cons_append]
  rw [isoDay?, htext, hsign, numbers?_three rfl (by decide)]
  simp only [sign_mul_natAbs]

/-! ### Words -/

theorem words_blank (cs : List Char) : words (' ' :: cs) = words cs :=
  rfl

/-- Any number of blanks in front of a text adds no word. -/
theorem words_blanks (n : Nat) (cs : List Char) :
    words (List.replicate n ' ' ++ cs) = words cs := by
  induction n with
  | zero => rfl
  | succ n ih => rw [List.replicate_succ, List.cons_append, words_blank, ih]

/-- A text without a blank is one word. -/
theorem words_of_not_mem {word : List Char} (hne : word ≠ []) (hword : ' ' ∉ word) :
    words word = [word] := by
  rw [words, pieces_eq_splitOn, List.splitOn_eq_singleton hword]
  exact List.filter_cons_of_pos (decide_eq_true hne)

/-- A word is taken off the front. -/
theorem words_append {word : List Char} (hne : word ≠ []) (hword : ' ' ∉ word) (rest : List Char) :
    words (word ++ ' ' :: rest) = word :: words rest := by
  rw [words, pieces_eq_splitOn, List.splitOn_append_cons_self_of_not_mem hword, words,
    pieces_eq_splitOn]
  exact List.filter_cons_of_pos (decide_eq_true hne)

theorem blank_not_mem_toDigits (n : Nat) : ' ' ∉ Nat.toDigits 10 n := by
  intro h
  exact absurd (Nat.isDigit_of_mem_toDigits (by decide) (by decide) h) (by decide)

/-- A time of day is one word. -/
theorem blank_not_mem_clockTime (t : Instant) : ' ' ∉ clockTime t := by
  have hnumber : ∀ width n, ' ' ∉ padded width n := not_mem_padded rfl
  simp [clockTime, twoDigits, hnumber]

/-- A year is one word. -/
theorem blank_not_mem_yearText (year : Int) : ' ' ∉ yearText year := by
  have hnumber : ∀ width n, ' ' ∉ padded width n := not_mem_padded rfl
  unfold yearText
  split
  · simp [hnumber]
  · split <;> simp [hnumber]

theorem yearText_ne_nil (year : Int) : yearText year ≠ [] := by
  unfold yearText
  split
  · exact List.cons_ne_nil _ _
  · split
    · exact List.cons_ne_nil _ _
    · exact padded_ne_nil (by decide)

/-- The names of a weekday and of a month are words. -/
theorem name_word {names : List String} (hnames : names = weekdayNames ∨ names = monthNames)
    {k : Nat} (hk : k < names.length) : (names.getD k "").toList ≠ [] ∧ ' ' ∉ (names.getD k "").toList := by
  have hall : ∀ name ∈ weekdayNames ++ monthNames, name.toList ≠ [] ∧ ' ' ∉ name.toList := by
    decide
  have hmem : names.getD k "" ∈ names := by
    rw [List.getD_eq_getElem?_getD, List.getElem?_eq_getElem hk]
    exact List.getElem_mem hk
  refine hall _ (List.mem_append.2 ?_)
  rcases hnames with rfl | rfl
  · exact .inl hmem
  · exact .inr hmem

theorem weekday_lt (n : Int) : Date.weekday n < 7 := by
  unfold Date.weekday
  omega

/-- The long rendering is five words: weekday, month, day, time and year, the day blank-padded or
not. -/
theorem words_systemDateTime (t : Instant) :
    words (systemDateTime t) =
      [(weekdayNames.getD (Date.weekday t.dayNumber) "").toList,
        (monthNames.getD (t.date.month - 1) "").toList, Nat.toDigits 10 t.date.day, clockTime t,
        yearText t.date.year] := by
  obtain ⟨⟨hlow, hhigh⟩, -⟩ := Date.valid_iff.1 (Date.valid_ofDays t.dayNumber)
  have hweekday := name_word (.inl rfl) (weekday_lt t.dayNumber)
  have hmonth := name_word (.inr rfl) (k := t.date.month - 1) (show _ < 12 by
    have : t.date.month ≤ 12 := hhigh
    omega)
  have hclock : clockTime t ≠ [] := by simp [clockTime]
  have htext : systemDateTime t =
      (weekdayNames.getD (Date.weekday t.dayNumber) "").toList ++
        ' ' :: ((monthNames.getD (t.date.month - 1) "").toList ++
        ' ' :: (List.replicate (2 - (Nat.toDigits 10 t.date.day).length) ' ' ++
        (Nat.toDigits 10 t.date.day ++ ' ' :: (clockTime t ++ ' ' :: yearText t.date.year)))) := by
    simp only [systemDateTime, dayText, List.append_assoc, List.cons_append]
  rw [htext, words_append hweekday.1 hweekday.2, words_append hmonth.1 hmonth.2, words_blanks,
    words_append Nat.toDigits_ne_nil (blank_not_mem_toDigits _),
    words_append hclock (blank_not_mem_clockTime t),
    words_of_not_mem (yearText_ne_nil _) (blank_not_mem_yearText _)]

/-- The text of date and time shows the day and the time of the instant. -/
theorem systemReading?_dateTime (t : Instant) :
    systemReading? (DateFormat.system.dateTime t).toList =
      some ⟨weekdayNames.getD (Date.weekday t.dayNumber) "", t.date, DateFormat.system.time t⟩ := by
  obtain ⟨⟨hlow, hhigh⟩, -⟩ := Date.valid_iff.1 (Date.valid_ofDays t.dayNumber)
  have hall : ∀ m : Fin 12, monthNames.idxOf? (monthNames.getD m.val "") = some m.val := by
    decide
  have hlow : 1 ≤ t.date.month := hlow
  have hhigh : t.date.month ≤ 12 := hhigh
  have hmonth : monthNames.idxOf? (monthNames.getD (t.date.month - 1) "") =
      some (t.date.month - 1) :=
    hall ⟨t.date.month - 1, by omega⟩
  rw [DateFormat.dateTime, String.toList_ofList]
  simp only [systemReading?, words_systemDateTime, String.ofList_toList, hmonth, number?_toDigits,
    year?_yearText, bind, Option.bind, pure, Nat.sub_add_cancel hlow]
  rfl

/-! ### Weekdays -/

/-- The weekday moves on by one from day to day. -/
theorem nextWeekday_weekday (n : Int) :
    NextWeekday (weekdayNames.getD (Date.weekday (n - 1)) "")
      (weekdayNames.getD (Date.weekday n) "") := by
  have hall : ∀ k : Fin 7, NextWeekday (weekdayNames.getD k.val "")
      (weekdayNames.getD ((k.val + 1) % 7) "") := by
    decide
  have hnext : Date.weekday n = (Date.weekday (n - 1) + 1) % 7 := by
    unfold Date.weekday
    omega
  rw [hnext]
  exact hall ⟨Date.weekday (n - 1), weekday_lt _⟩

/-- The first of January 1970 was a Thursday. -/
theorem weekday_epoch {t : Instant} (h : isoDate t = "1970-01-01".toList) :
    weekdayNames.getD (Date.weekday t.dayNumber) "" = "Thu" := by
  have hdate : t.date = ⟨1970, 1, 1⟩ := by
    have hshown := isoDay?_isoDate t
    rw [h] at hshown
    exact (Option.some.inj (hshown.symm.trans (by decide)))
  have hday : t.dayNumber = 0 := by
    rw [← Date.toDays_ofDays t.dayNumber]
    show t.date.toDays = 0
    rw [hdate]
    rfl
  rw [hday]
  rfl

/-! ### The six texts -/

/-- The ISO rendering of a moment is its date, a mark and its time. -/
theorem isoDateTime_joined (t : Instant) :
    DateFormat.iso.dateTime t = DateFormat.iso.date t ++ "T" ++ DateFormat.iso.time t := by
  rw [← String.toList_inj]
  simp [DateFormat.dateTime, DateFormat.date, DateFormat.time, isoDateTime]

/-- The clock shows hour, minute and second of the day, one second more in a leap second. -/
theorem numbers?_clockTime (t : Instant) :
    numbers? ':' (clockTime t) = some [t.hour, t.minute, t.secondOfMinute] := by
  have htext : clockTime t = padded 2 t.hour ++
      ':' :: (twoDigits t.minute ++ ':' :: twoDigits t.secondOfMinute) := by
    simp only [clockTime, twoDigits, List.append_assoc, List.cons_append]
  rw [htext]
  exact numbers?_three rfl Nat.two_pos _ _ _

/-- The clock shows the second of the day, one more in a leap second. -/
theorem clock_eq (t : Instant) :
    (t.hour * 3600 + t.minute * 60 + t.secondOfMinute : Int) =
      t.seconds % daySeconds + (t.nanos / second : Nat) := by
  have hday : (t.secondOfDay : Int) = t.seconds % daySeconds :=
    Int.toNat_of_nonneg (Int.emod_nonneg _ (by decide))
  unfold Instant.hour Instant.minute Instant.secondOfMinute
  omega

/-- A time of day takes eight characters, also in a leap second. -/
theorem length_clockTime {t : Instant} (ht : t.nanos < 2 * second) : (clockTime t).length = 8 := by
  have hday := Instant.secondOfDay_lt t
  have htwo : ∀ n < 100, (twoDigits n).length = 2 := fun n => length_padded Nat.two_pos
  have hhour := htwo t.hour (by unfold Instant.hour; omega)
  have hminute := htwo t.minute (by unfold Instant.minute; omega)
  have hsecond := htwo t.secondOfMinute (by unfold Instant.secondOfMinute second at *; omega)
  simp only [clockTime, List.length_append, List.length_cons, hhour, hminute, hsecond]

/-- Behind the clock the ISO time goes on with the milliseconds. -/
theorem isoTime_eq (t : Instant) :
    DateFormat.iso.time t = DateFormat.system.time t ++ "." ++
      String.ofList (padded 3 t.millisecond) ++ "Z" := by
  rw [← String.toList_inj]
  simp [DateFormat.time, isoTime]

/-- The short date is the month, the day and the last two digits of the year, between slashes. -/
theorem systemDate_eq (t : Instant) :
    systemDate t = padded 2 t.date.month ++
      '/' :: (twoDigits t.date.day ++ '/' :: twoDigits (t.date.year % 100).toNat) := by
  simp only [systemDate, twoDigits, List.append_assoc, List.cons_append]

/-- The short date takes eight characters, for every year. -/
theorem length_systemDate (t : Instant) : (systemDate t).length = 8 := by
  obtain ⟨⟨-, hmonth⟩, -, hlast⟩ := Date.valid_iff.1 (Date.valid_ofDays t.dayNumber)
  have hday := Nat.le_trans hlast (daysInMonth_le _ _)
  have htwo : ∀ n < 100, (twoDigits n).length = 2 := fun n => length_padded Nat.two_pos
  have hmonth := htwo t.date.month (Nat.lt_of_le_of_lt hmonth (by decide))
  have hday := htwo t.date.day (Nat.lt_of_le_of_lt hday (by decide))
  have hyear := htwo (t.date.year % 100).toNat (by omega)
  simp only [systemDate, List.length_append, List.length_cons, hmonth, hday, hyear]

end AppShell.Calendar
