/-
AppShell/Proofs/Json/Numbers.lean

Blanks and numbers of a JSON text.

A number goes on as long as it can, so what follows it matters: `Closed rest`
says that `rest` does not go on with a number, which holds of every blank, comma
and bracket.  Under this condition a number is passed over up to its end
(`Magnitude.scanNumber`).
-/
import AppShell.Proofs.Json.Grammar

namespace AppShell.Json

/-! ### Blanks -/

namespace Spaces

variable {cs rest : List Char}

theorem trans {rest' : List Char} (h : Spaces cs rest) (h' : Spaces rest rest') :
    Spaces cs rest' := by
  induction h with
  | none => exact h'
  | blank hc _ ih => exact .blank hc (ih h')

/-- What is left after blanks is no longer than what stood before them. -/
theorem length_le (h : Spaces cs rest) : rest.length ≤ cs.length := by
  induction h with
  | none => exact Nat.le_refl _
  | blank _ _ ih => exact Nat.le_succ_of_le ih

/-- The reader skips the blanks the grammar allows: what it sees past them is the same. -/
theorem skipSpace (h : Spaces cs rest) : skipSpace cs = skipSpace rest := by
  induction h with
  | none => rfl
  | blank hc _ ih => rw [← ih, Json.skipSpace, List.dropWhile_cons_of_pos hc, Json.skipSpace]

/-- In front of a character that is no blank the reader stops exactly where the blanks end. -/
theorem skipSpace_eq {c : Char} (h : Spaces cs (c :: rest)) (hc : isSpace c = false) :
    Json.skipSpace cs = c :: rest := by
  rw [h.skipSpace, Json.skipSpace, List.dropWhile_cons_of_neg (by simp [hc])]

end Spaces

/-! ### Numbers -/

/-- What is left does not go on with a digit. -/
def NoDigit (rest : List Char) : Prop :=
  ∀ c ∈ rest.head?, c.isDigit = false

/-- What is left goes on neither with a digit nor with a point. -/
def NoFraction (rest : List Char) : Prop :=
  ∀ c ∈ rest.head?, c.isDigit = false ∧ c ≠ '.'

/-- What is left does not go on with a number. -/
def Closed (rest : List Char) : Prop :=
  ∀ c ∈ rest.head?, c.isDigit = false ∧ c ≠ '.' ∧ c ≠ 'e' ∧ c ≠ 'E'

theorem Closed.nil : Closed [] := by
  rintro c ⟨⟩

/-- A character that is no digit, no point and no exponent mark ends a number. -/
theorem Closed.cons {c : Char} (hc : c.isDigit = false ∧ c ≠ '.' ∧ c ≠ 'e' ∧ c ≠ 'E')
    (rest : List Char) : Closed (c :: rest) := by
  rintro d ⟨⟩
  exact hc

/-- Blanks end a number when what follows them does. -/
theorem Spaces.closed {cs rest : List Char} (h : Spaces cs rest) (hrest : Closed rest) :
    Closed cs := by
  cases h with
  | none => exact hrest
  | blank hc _ =>
    refine .cons ?_ _
    simp only [isSpace, Bool.or_eq_true, beq_iff_eq] at hc
    rcases hc with ((rfl | rfl) | rfl) | rfl <;> decide

section Number

variable {ds cs rest : List Char} {atEnd : Cause}

namespace Digits

/-- The reader takes all the digits of a run that no digit follows. -/
theorem takeDigits (h : Digits ds cs rest) (hrest : NoDigit rest) :
    takeDigits cs = (ds, rest) := by
  rw [Json.takeDigits, h.text, List.takeWhile_append_of_pos h.digits,
    List.dropWhile_append_of_pos h.digits]
  cases rest with
  | nil => simp
  | cons c rest =>
    have hc : c.isDigit = false := hrest c rfl
    simp [hc]

/-- A run of digits, which is never empty, satisfies the reader that asks for one. -/
theorem needDigits (h : Digits ds cs rest) (hrest : NoDigit rest) :
    needDigits atEnd cs = .ok (ds, rest) := by
  obtain ⟨d, ds', rfl⟩ := List.exists_cons_of_ne_nil h.ne_nil
  rw [Json.needDigits, h.takeDigits hrest]

theorem exists_head (h : Digits ds cs rest) : ∃ d cs', cs = d :: cs' ∧ d.isDigit = true := by
  obtain ⟨d, ds', rfl⟩ := List.exists_cons_of_ne_nil h.ne_nil
  exact ⟨d, ds' ++ rest, h.text, h.digits d List.mem_cons_self⟩

/-- A run of digits takes at least one character. -/
theorem length_lt (h : Digits ds cs rest) : rest.length < cs.length := by
  have hpos : 0 < ds.length := List.length_pos_iff.mpr h.ne_nil
  rw [h.text, List.length_append]
  omega

end Digits

namespace Whole

/-- The reader agrees with the grammar on the part in front of the point: one zero, or digits of
which the first is not a zero. -/
theorem scanWhole (h : Whole ds cs rest) (hrest : NoDigit rest) :
    scanWhole atEnd cs = .ok (ds, rest) := by
  cases h with
  | zero =>
    have hzero : Digits ['0'] ('0' :: rest) rest := ⟨rfl, by simp, by simp⟩
    rw [Json.scanWhole, hzero.needDigits hrest]
    rfl
  | digits hd h =>
    rw [Json.scanWhole, h.needDigits hrest]
    split
    · next he => cases he
    · next he =>
      cases he
      exact absurd rfl hd
    · next he => exact congrArg _ (Except.ok.inj he).symm

theorem exists_head (h : Whole ds cs rest) : ∃ d cs', cs = d :: cs' ∧ d.isDigit = true := by
  cases h with
  | zero => exact ⟨'0', rest, rfl, rfl⟩
  | digits _ h => exact h.exists_head

theorem length_lt (h : Whole ds cs rest) : rest.length < cs.length := by
  cases h with
  | zero => exact Nat.lt_succ_self _
  | digits _ h => exact h.length_lt

end Whole

namespace Fraction

/-- The reader agrees with the grammar on the fraction, present or not. -/
theorem scanFraction (h : Fraction ds cs rest) (hrest : NoFraction rest) :
    scanFraction atEnd cs = .ok (ds, rest) := by
  cases h with
  | none =>
    cases cs with
    | nil => rfl
    | cons c rest =>
      rw [Json.scanFraction]
      rintro r ⟨⟩
      exact (hrest '.' rfl).2 rfl
  | digits h => exact h.needDigits fun c hc => (hrest c hc).1

/-- What a fraction begins with is no digit, so it ends the whole part. -/
theorem noDigit (h : Fraction ds cs rest) (hrest : NoFraction rest) : NoDigit cs := by
  cases h with
  | none => exact fun c hc => (hrest c hc).1
  | digits =>
    rintro c ⟨⟩
    rfl

theorem length_le (h : Fraction ds cs rest) : rest.length ≤ cs.length := by
  cases h with
  | none => exact Nat.le_refl _
  | digits h => exact Nat.le_succ_of_le (Nat.le_of_lt h.length_lt)

end Fraction

namespace ExponentSign

variable {negative : Bool}

/-- The reader agrees with the grammar on the sign of an exponent. -/
theorem scanSign (h : ExponentSign negative cs rest)
    (hrest : ∃ d cs', rest = d :: cs' ∧ d.isDigit) : scanSign cs = (negative, rest) := by
  obtain ⟨d, cs', rfl, hd⟩ := hrest
  cases h with
  | none =>
    rw [Json.scanSign]
    · rintro r ⟨⟩
      cases hd
    · rintro r ⟨⟩
      cases hd
  | plus => rfl
  | minus => rfl

theorem length_le (h : ExponentSign negative cs rest) : rest.length ≤ cs.length := by
  cases h with
  | none => exact Nat.le_refl _
  | plus => exact Nat.le_succ _
  | minus => exact Nat.le_succ _

end ExponentSign

namespace Exponent

variable {e : Option (Bool × List Char)}

/-- The reader agrees with the grammar on the exponent, present or not. -/
theorem scanExponent (h : Exponent e cs rest) (hrest : Closed rest) :
    scanExponent atEnd cs = .ok (e, rest) := by
  cases h with
  | none =>
    cases cs with
    | nil => rfl
    | cons c rest =>
      obtain ⟨-, -, he, hE⟩ := hrest c rfl
      rw [Json.scanExponent, if_neg (by simp [he, hE])]
  | digits he hsign hdigits =>
    rw [Json.scanExponent, if_pos he, hsign.scanSign hdigits.exists_head]
    show Except.map _ (Json.needDigits atEnd _) = _
    rw [hdigits.needDigits fun c hc => (hrest c hc).1]
    rfl

/-- What an exponent begins with is no fraction, so it ends the one before it. -/
theorem noFraction (h : Exponent e cs rest) (hrest : Closed rest) : NoFraction cs := by
  cases h with
  | none => exact fun c hc => ⟨(hrest c hc).1, (hrest c hc).2.1⟩
  | digits he =>
    rintro c ⟨⟩
    rcases he with rfl | rfl <;> decide

theorem length_le (h : Exponent e cs rest) : rest.length ≤ cs.length := by
  cases h with
  | none => exact Nat.le_refl _
  | digits _ hsign hdigits =>
    exact Nat.le_succ_of_le (Nat.le_trans (Nat.le_of_lt hdigits.length_lt) hsign.length_le)

end Exponent

namespace Magnitude

variable {n : Literal}

/-- A number is taken apart as it was spelled, whatever its sign was. -/
theorem scanNumber_eq (h : Magnitude n cs rest) (hrest : Closed rest) (negative : Bool) :
    Json.scanNumber atEnd negative cs = .ok ({ n with negative := negative }, rest) := by
  obtain ⟨hwhole, hfraction, hexponent⟩ := h
  have hbehind := hexponent.noFraction hrest
  rw [Json.scanNumber, hwhole.scanWhole (hfraction.noDigit hbehind)]
  show (Json.scanFraction atEnd _ >>= _) = _
  rw [hfraction.scanFraction hbehind]
  show (Json.scanExponent atEnd _ >>= _) = _
  rw [hexponent.scanExponent hrest]
  rfl

/-- The reader takes exactly the text the grammar gives to a number without its minus sign. -/
theorem scanNumber (h : Magnitude n cs rest) (hrest : Closed rest) :
    (scanNumber atEnd false cs).map Prod.snd = .ok rest := by
  rw [h.scanNumber_eq hrest]
  rfl

theorem exists_head (h : Magnitude n cs rest) : ∃ d cs', cs = d :: cs' ∧ d.isDigit = true := by
  obtain ⟨hwhole, -, -⟩ := h
  exact hwhole.exists_head

theorem length_lt (h : Magnitude n cs rest) : rest.length < cs.length := by
  obtain ⟨hwhole, hfraction, hexponent⟩ := h
  have := hwhole.length_lt
  have := hfraction.length_le
  have := hexponent.length_le
  omega

end Magnitude

/-- A number takes at least one character, which is what the readers' recursion goes down by. -/
theorem Numeral.length_lt {n : Literal} (h : Numeral n cs rest) : rest.length < cs.length := by
  cases h with
  | plain _ h => exact h.length_lt
  | minus _ h => exact Nat.lt_succ_of_lt h.length_lt

end Number

end AppShell.Json
