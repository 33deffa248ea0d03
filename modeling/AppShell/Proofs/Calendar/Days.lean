/-
AppShell/Proofs/Calendar/Days.lean

A day and its number determine each other.

A year and a month are found by where the day falls between their first days:
`yearOf_bounds` pins the year, `monthOf_bounds` the month.  What is left over is
the day of the month, so the fields found for a number are those of a day
(`Date.valid_ofDays`) and lead back to the number (`Date.toDays_ofDays`).  Days
that come later by year, month and day have greater numbers (`Date.toDays_lt`).
-/
import AppShell.Calendar.Date

namespace AppShell.Calendar

/-- The number of days of a year. -/
def daysInYear (leap : Bool) : Nat :=
  if leap then 366 else 365

/-- A year begins where the one before it ends. -/
theorem daysBeforeYear_succ (year : Int) :
    daysBeforeYear (year + 1) = daysBeforeYear year + daysInYear (isLeap year) := by
  by_cases hleap : isLeap year = true
  · rw [hleap]
    simp only [isLeap, Bool.and_eq_true, Bool.or_eq_true, beq_iff_eq, bne_iff_ne] at hleap
    simp only [daysBeforeYear, daysInYear, if_true]
    omega
  · rw [eq_false_of_ne_true hleap]
    simp only [isLeap, Bool.and_eq_true, Bool.or_eq_true, beq_iff_eq, bne_iff_ne] at hleap
    simp only [daysBeforeYear, daysInYear, Bool.false_eq_true, if_false]
    omega

/-- The month that is found for a day of a year is the one in which it lies. -/
theorem monthOf_bounds {leap : Bool} {dayOfYear : Nat} (h : dayOfYear < daysInYear leap) :
    (1 ≤ monthOf leap dayOfYear ∧ monthOf leap dayOfYear ≤ 12) ∧
      daysBeforeMonth leap (monthOf leap dayOfYear) ≤ dayOfYear ∧
      dayOfYear < daysBeforeMonth leap (monthOf leap dayOfYear) +
        daysInMonth leap (monthOf leap dayOfYear) := by
  have hall : ∀ leap : Bool, ∀ d : Fin (daysInYear leap),
      (1 ≤ monthOf leap d ∧ monthOf leap d ≤ 12) ∧
        daysBeforeMonth leap (monthOf leap d) ≤ d ∧
        d < daysBeforeMonth leap (monthOf leap d) + daysInMonth leap (monthOf leap d) := by
    decide +kernel
  exact hall leap ⟨dayOfYear, h⟩

theorem daysInMonth_le (leap : Bool) (month : Nat) : daysInMonth leap month ≤ 31 := by
  unfold daysInMonth
  repeat' split
  all_goals omega

/-- A month ends before a later one begins. -/
theorem daysBeforeMonth_add_le (leap : Bool) {m m' : Nat} (hm : 1 ≤ m) (hlt : m < m')
    (hm' : m' ≤ 12) : daysBeforeMonth leap m + daysInMonth leap m ≤ daysBeforeMonth leap m' := by
  have hall : ∀ leap : Bool, ∀ m' : Fin 13, ∀ m : Fin m', 1 ≤ m.val →
      daysBeforeMonth leap m + daysInMonth leap m ≤ daysBeforeMonth leap m' := by
    decide
  exact hall leap ⟨m', Nat.lt_succ_of_le hm'⟩ ⟨m, hlt⟩ hm

/-- Later years begin later, by at least the length of the earlier one. -/
theorem daysBeforeYear_add_le {y y' : Int} (h : y < y') :
    daysBeforeYear y + daysInYear (isLeap y) ≤ daysBeforeYear y' := by
  rw [← daysBeforeYear_succ]
  unfold daysBeforeYear
  omega

namespace Date

/-- What is left of a day when the days before its year are taken away. -/
def dayOfYear (n : Int) : Nat :=
  (n + epochDays - daysBeforeYear (yearOf (n + epochDays))).toNat

theorem dayOfYear_lt (n : Int) :
    dayOfYear n < daysInYear (isLeap (yearOf (n + epochDays))) := by
  have hyear := yearOf_bounds (n + epochDays)
  rw [daysBeforeYear_succ] at hyear
  unfold dayOfYear
  omega

theorem ofDays_eq (n : Int) :
    ofDays n =
      let year := yearOf (n + epochDays)
      let month := monthOf (isLeap year) (dayOfYear n)
      ⟨year, month, dayOfYear n - daysBeforeMonth (isLeap year) month + 1⟩ :=
  rfl

theorem valid_iff {d : Date} :
    d.valid = true ↔
      (1 ≤ d.month ∧ d.month ≤ 12) ∧ 1 ≤ d.day ∧ d.day ≤ daysInMonth (isLeap d.year) d.month := by
  simp only [valid, Bool.and_eq_true, decide_eq_true_eq, and_assoc]

/-- The fields that are found for a number are those of a day. -/
theorem valid_ofDays (n : Int) : (ofDays n).valid = true := by
  obtain ⟨⟨hlow, hhigh⟩, hbefore, hafter⟩ := monthOf_bounds (dayOfYear_lt n)
  rw [ofDays_eq, valid_iff]
  exact ⟨⟨hlow, hhigh⟩, Nat.le_add_left 1 _, by dsimp only; omega⟩

/-- The fields that are found for a number lead back to it. -/
theorem toDays_ofDays (n : Int) : (ofDays n).toDays = n := by
  have hyear := (yearOf_bounds (n + epochDays)).1
  have hbefore := (monthOf_bounds (dayOfYear_lt n)).2.1
  have hrest : (dayOfYear n : Int) = n + epochDays - daysBeforeYear (yearOf (n + epochDays)) :=
    Int.toNat_of_nonneg (by omega)
  simp only [ofDays_eq, toDays]
  omega

/-- A day of a month lies before the end of its year. -/
theorem daysBeforeMonth_add_day_le {d : Date} (hd : d.valid = true) :
    daysBeforeMonth (isLeap d.year) d.month + d.day ≤ daysInYear (isLeap d.year) := by
  obtain ⟨⟨hlow, hhigh⟩, -, hday⟩ := valid_iff.1 hd
  have hend : ∀ leap : Bool, ∀ m : Fin 13, 1 ≤ m.val →
      daysBeforeMonth leap m + daysInMonth leap m ≤ daysInYear leap := by
    decide
  have := hend (isLeap d.year) ⟨d.month, Nat.lt_succ_of_le hhigh⟩ hlow
  dsimp only at this
  omega

/-- A day whose fields come first has the lesser number. -/
theorem toDays_lt {d d' : Date} (hd : d.valid = true) (hd' : d'.valid = true)
    (h : d.year < d'.year ∨
      d.year = d'.year ∧ (d.month < d'.month ∨ d.month = d'.month ∧ d.day < d'.day)) :
    d.toDays < d'.toDays := by
  unfold toDays
  obtain ⟨⟨hlow, hhigh⟩, hfirst, hlast⟩ := valid_iff.1 hd
  obtain ⟨⟨hlow', hhigh'⟩, hfirst', hlast'⟩ := valid_iff.1 hd'
  rcases h with hyear | ⟨hyear, hmonth | ⟨hmonth, hday⟩⟩
  · have := daysBeforeYear_add_le hyear
    have := daysBeforeMonth_add_day_le hd
    omega
  · have := daysBeforeMonth_add_le (isLeap d.year) hlow hmonth hhigh'
    rw [← hyear]
    omega
  · rw [← hyear, ← hmonth]
    omega

end Date

end AppShell.Calendar
