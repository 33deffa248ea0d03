/-
AppShell/Proofs/Calendar/Offsets.lean

Timestamps with an offset.

A stamp gives the local time of an instant, and by how much that is ahead of
universal time: a letter for nothing, or a sign with hours and minutes.  The local
date is that of the instant moved by the offset, so it may be another day, month or
year.  A fraction may have any number of digits, of which the first nine count
(`Stamp.fractionNanos_eq`); a `Spelling` of an instant fixes what a writer is free
to choose.

The main statement is `parse_text`: every spelling of an instant is read as that
instant, a leap second as a leap second, so that its text does not depend on the
spelling.
-/
import AppShell.Proofs.Calendar.RoundTrip

namespace AppShell.Calendar

/-! ### Offsets -/

/-- The sign of an offset, for which there are two kinds of minus. -/
inductive OffsetSign where
  | plus
  | hyphen
  | minus
deriving DecidableEq

/-- The character of a sign. -/
def OffsetSign.char : OffsetSign → Char
  | .plus => '+'
  | .hyphen => '-'
  | .minus => '\u2212'

/-- How an offset is written: a letter for universal time, or a sign with the minutes of less than a
day. -/
inductive Zone where
  | letter (small : Bool)
  | shifted (sign : OffsetSign) (minutes : Fin 1440)

namespace Zone

/-- The minutes by which the time of a zone is ahead of universal time. -/
def minutes : Zone → Int
  | .letter _ => 0
  | .shifted .plus m => m
  | .shifted _ m => -m

/-- The text of an offset. -/
def text : Zone → List Char
  | .letter small => [if small then 'z' else 'Z']
  | .shifted sign m => sign.char :: (twoDigits (m / 60) ++ ':' :: twoDigits (m % 60))

theorem natAbs_minutes_lt (z : Zone) : z.minutes.natAbs < 1440 := by
  cases z with
  | letter small => exact Nat.zero_lt_succ _
  | shifted sign m =>
    have hm := m.isLt
    cases sign <;> simp only [minutes] <;> omega

end Zone

namespace Stamp

/-- The two digits of a number are read as a pair. -/
theorem readPair_twoDigits {n : Nat} (h : n < 100) (rest : List Char) :
    readPair (twoDigits n ++ rest) = .ok ((n / 10, n % 10), rest) := by
  have hshape : ∀ n : Fin 100, twoDigits n = [Nat.digitChar (n.val / 10), Nat.digitChar (n.val % 10)] ∧
      digit? (Nat.digitChar (n.val / 10)) = some (n.val / 10) ∧
      digit? (Nat.digitChar (n.val % 10)) = some (n.val % 10) := by
    decide +kernel
  obtain ⟨htext, htens, hones⟩ := hshape ⟨n, h⟩
  dsimp only at htext htens hones
  have hbytes : 2 ≤ Json.byteLength (twoDigits n ++ rest) := by
    refine Nat.le_trans ?_ (length_le_byteLength _)
    rw [htext, List.length_append]
    exact Nat.le_add_right 2 _
  rw [htext, List.cons_append, List.cons_append, List.nil_append] at hbytes ⊢
  rw [readPair, if_neg (Nat.not_lt.2 hbytes), htens, hones]

/-- The text of an offset is read as its seconds. -/
theorem readOffset_text (z : Zone) : readOffset z.text = .ok (60 * z.minutes, []) := by
  cases z with
  | letter small => cases small <;> rfl
  | shifted sign m =>
    have hm := m.isLt
    have hhours := readPair_twoDigits (n := m / 60) (by omega) (':' :: twoDigits (m % 60))
    have hminutes := readPair_twoDigits (n := m % 60) (by omega) []
    rw [List.append_nil] at hminutes
    have htens : ¬ 6 ≤ m.val % 60 / 10 := by omega
    cases sign <;>
      simp [Zone.text, Zone.minutes, OffsetSign.char, readOffset, readSign, hhours, hminutes, htens,
        bind, Except.bind, pure, Except.pure] <;>
      omega

end Stamp

/-! ### Spellings -/

/-- The instant whose universal time is what a clock in a zone shows. -/
def Instant.inZone (t : Instant) (z : Zone) : Instant :=
  { t with seconds := t.seconds + 60 * z.minutes }

/-- An offset of whole minutes leaves the second of the minute as it is. -/
theorem Instant.Regular.inZone {t : Instant} (ht : t.Regular) (z : Zone) :
    (t.inZone z).Regular := by
  refine ht.imp_right fun ⟨hleap, hend, hlast⟩ => ⟨hleap, hend, ?_⟩
  simp only [Instant.inZone]
  omega

/-- How an instant is written as a timestamp.  The first nine digits of the fraction, with zeros
behind them if there are fewer, are the nanoseconds of the second; there may be none. -/
structure Spelling (t : Instant) where
  separator : Char
  fraction : List Char
  zone : Zone
  separator_mem : separator ∈ ['T', 't', ' ']
  isDigit_of_mem : ∀ c ∈ fraction, c.isDigit = true
  nanos_eq : (fraction ++ List.replicate 9 '0').take 9 = padded 9 (t.nanos % second)

namespace Spelling

variable {t : Instant}

/-- The fraction behind a point, or nothing. -/
def fractionText (s : Spelling t) : List Char :=
  if s.fraction = [] then [] else '.' :: s.fraction

/-- The local date and time, the fraction and the offset. -/
def text (s : Spelling t) : List Char :=
  isoDate (t.inZone s.zone) ++
    s.separator :: (clockTime (t.inZone s.zone) ++ (s.fractionText ++ s.zone.text))

theorem fractionNanos_fraction (s : Spelling t) :
    Stamp.fractionNanos s.fraction = t.nanos % second := by
  rw [Stamp.fractionNanos_eq, s.nanos_eq, ofDigitChars_padded]

/-- The fraction is read as the nanoseconds of the second. -/
theorem readFraction_text (s : Spelling t) :
    Stamp.readFraction (s.fractionText ++ s.zone.text) = .ok (t.nanos % second, s.zone.text) := by
  have hzone : s.zone.text.takeWhile Char.isDigit = [] := by
    rcases s.zone with small | ⟨sign, m⟩
    · cases small <;> rfl
    · cases sign <;> rfl
  have hnanos := s.fractionNanos_fraction
  by_cases hnone : s.fraction = []
  · -- without a fraction the nanoseconds of the second are zero
    rw [hnone] at hnanos
    rw [fractionText, if_pos hnone, List.nil_append, ← hnanos]
    rcases s.zone with small | ⟨sign, m⟩
    · cases small <;> rfl
    · cases sign <;> rfl
  · rw [fractionText, if_neg hnone, List.cons_append,
      Stamp.readFraction_append hnone s.isDigit_of_mem hzone, hnanos]

end Spelling

/-- Every text of an instant with a local date of four-digit year is read as that instant, whatever
the offset and the spelling, and so shown as the instant is in each format. -/
theorem parse_text {t : Instant} (ht : t.valid = true) (s : Spelling t)
    (hyear : 0 ≤ (t.inZone s.zone).date.year ∧ (t.inZone s.zone).date.year ≤ 9999) :
    Stamp.parse s.text = .ok t ∧
      ∀ f : DateFormat, f.dateTimeOfStamp (String.ofList s.text) = .ok (f.dateTime t) := by
  have hregular := Instant.regular_of_valid ht
  have hday : (60 * s.zone.minutes).natAbs < 86400 := by
    have hminutes := s.zone.natAbs_minutes_lt
    omega
  -- the offset moves the date and the clock, and the reader takes it back; the fraction does not
  -- move
  have hseconds : (t.inZone s.zone).seconds - 60 * s.zone.minutes = t.seconds := by
    simp only [Instant.inZone]
    omega
  have hnanos : t.nanos % second + (if (t.inZone s.zone).nanos < second then 0 else second) =
      t.nanos := by
    show t.nanos % second + (if t.nanos < second then 0 else second) = t.nanos
    rcases hregular with hplain | ⟨hleap, hend, -⟩
    · rw [if_pos hplain, Nat.mod_eq_of_lt hplain, Nat.add_zero]
    · rw [if_neg (Nat.not_lt.2 hleap), Nat.mod_eq_sub_mod hleap, Nat.mod_eq_of_lt (by omega)]
      omega
  have hparse : Stamp.parse s.text = .ok t := by
    rw [Spelling.text, Stamp.parse_append (hregular.inZone s.zone) hyear s.separator_mem
      s.readFraction_text (Stamp.readOffset_text s.zone) hday, hseconds, hnanos]
  refine ⟨hparse, fun f => ?_⟩
  rw [DateFormat.dateTimeOfStamp, String.toList_ofList, hparse]
  rfl

/-- The leap second in the last minute before the year zero, written one minute ahead, which makes it
lie in that year, and with more digits than count. -/
def yearZeroSpelling : Spelling ⟨-62167219201, 1500000000⟩ where
  separator := 't'
  fraction := "5000000009".toList
  zone := .shifted .plus 1
  separator_mem := by decide
  isDigit_of_mem := List.all_eq_true.1 (by decide)
  nanos_eq := by decide

theorem parse_text_yearZero :
    Stamp.parse "0000-01-01t00:00:60.5000000009+00:01".toList = .ok ⟨-62167219201, 1500000000⟩ ∧
      DateFormat.iso.dateTimeOfStamp "0000-01-01t00:00:60.5000000009+00:01" =
        .ok "-0001-12-31T23:59:60.500Z" := by
  have htext : yearZeroSpelling.text = "0000-01-01t00:00:60.5000000009+00:01".toList := by
    decide +kernel
  have hshown : DateFormat.iso.dateTime ⟨-62167219201, 1500000000⟩ = "-0001-12-31T23:59:60.500Z" := by
    decide +kernel
  obtain ⟨hparse, hstamp⟩ := parse_text (t := ⟨-62167219201, 1500000000⟩) rfl yearZeroSpelling
    (by decide +kernel)
  have hiso := hstamp .iso
  rw [htext] at hparse hiso
  rw [hshown, String.ofList_toList] at hiso
  exact ⟨hparse, hiso⟩

end AppShell.Calendar
