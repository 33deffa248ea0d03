/-
AppShell/Proofs/Json/Strings.lean

Strings of a JSON text.

Whatever spells a string is read as its characters (`Chars.readChars`) and is
passed over up to its closing quote (`Chars.skipChars`).  A string that is
written between quotes is spelled there, whatever characters it has
(`Chars.written`).
-/
import AppShell.Json.Printer
import AppShell.Proofs.Json.Grammar

namespace AppShell.Json

/-! ### Escapes -/

/-- An escape is read as the character that it stands for. -/
theorem readChars_escape {cs rest : List Char} {c : Char} (h : readEscape cs = .ok (c, rest)) :
    readChars ('\\' :: cs) = (readChars rest).map fun r => (c :: r.1, r.2) := by
  rw [readChars]
  split
  · next he => rw [h] at he; cases he
  · next he =>
    rw [h] at he
    cases he
    cases readChars rest <;> rfl

/-- What follows an escape is passed over like the rest of the string. -/
theorem skipChars_escape {cs rest : List Char} (h : skipEscape cs = .ok rest) :
    skipChars ('\\' :: cs) = skipChars rest := by
  rw [skipChars]
  split
  · next he => rw [h] at he; cases he
  · next he =>
    rw [h] at he
    cases he
    rfl

theorem letterEscape?_of_mem {l c : Char} (h : (l, c) ∈ escapeLetters) :
    letterEscape? l = some c ∧ l ≠ 'u' := by
  have hall : ∀ p ∈ escapeLetters, letterEscape? p.1 = some p.2 ∧ p.1 ≠ 'u' := by decide
  exact hall (l, c) h

theorem isTrailing_eq_false {n : Nat} (h : isLeading n = true) : isTrailing n = false := by
  simp only [isLeading, isTrailing, Bool.and_eq_true, decide_eq_true_eq, Bool.and_eq_false_iff,
    decide_eq_false_iff_not] at *
  omega

theorem readUnit_eq {a b c d : Char} {n : Nat} (h : unitValue? a b c d = some n)
    (rest : List Char) : readUnit (a :: b :: c :: d :: rest) = .ok (n, rest) := by
  rw [readUnit, h]

/-- An escape outside of the surrogates stands for the character of its code unit. -/
theorem readEscape_unit {a b c d : Char} {n : Nat} (h : unitValue? a b c d = some n)
    (hleading : isLeading n = false) (htrailing : isTrailing n = false) (rest : List Char) :
    readEscape ('u' :: a :: b :: c :: d :: rest) = .ok (Char.ofNat n, rest) := by
  simp [readEscape, readNumbered, readUnit_eq h, hleading, htrailing]

/-- A pair of escapes stands for the character of its surrogates. -/
theorem readEscape_pair {a b c d a' b' c' d' : Char} {lead trail : Nat}
    (hlead : unitValue? a b c d = some lead) (hleading : isLeading lead = true)
    (htrail : unitValue? a' b' c' d' = some trail) (htrailing : isTrailing trail = true)
    (rest : List Char) :
    readEscape ('u' :: a :: b :: c :: d :: '\\' :: 'u' :: a' :: b' :: c' :: d' :: rest) =
      .ok (joinSurrogates lead trail, rest) := by
  simp [readEscape, readNumbered, readUnit_eq hlead, hleading, isTrailing_eq_false hleading,
    readTrailing, readUnit_eq htrail, htrailing]

/-! ### Strings of the grammar -/

/-- A character that needs no escape is read as it is. -/
theorem readChars_plain {c : Char} (hc : ¬ c.toNat < 0x20) (hquote : c ≠ '"')
    (hbackslash : c ≠ '\\') (rest : List Char) :
    readChars (c :: rest) = (readChars rest).map fun r => (c :: r.1, r.2) := by
  rw [readChars]
  · rw [if_neg hc]
    cases readChars rest <;> rfl
  · exact hquote
  · exact hbackslash

/-- A character that needs no escape is skipped. -/
theorem skipChars_plain {c : Char} (hc : ¬ c.toNat < 0x20) (hquote : c ≠ '"')
    (hbackslash : c ≠ '\\') (rest : List Char) : skipChars (c :: rest) = skipChars rest := by
  rw [skipChars]
  · rw [if_neg hc]
  · exact hquote
  · exact hbackslash

namespace Chars

variable {s cs rest : List Char}

/-- The inside of a string takes the quotation mark at least. -/
theorem length_lt (h : Chars s cs rest) : rest.length < cs.length := by
  induction h <;> simp only [List.length_cons] at * <;> omega

/-- A string is read as the characters that it spells. -/
theorem readChars (h : Chars s cs rest) : readChars cs = .ok (s, rest) := by
  induction h with
  | close => rw [Json.readChars]
  | plain hc hquote hbackslash _ ih =>
    rw [readChars_plain (Nat.not_lt.mpr hc) hquote hbackslash, ih]
    rfl
  | letter hl _ ih =>
    obtain ⟨hletter, hu⟩ := letterEscape?_of_mem hl
    rw [readChars_escape (by rw [readEscape, if_neg hu, hletter]), ih]
    rfl
  | unit hn hleading htrailing _ ih =>
    rw [readChars_escape (readEscape_unit hn hleading htrailing _), ih]
    rfl
  | pair hlead hleading htrail htrailing _ ih =>
    rw [readChars_escape (readEscape_pair hlead hleading htrail htrailing _), ih]
    rfl

/-- The reader gives the characters that the grammar gives. -/
theorem readText (h : Chars s cs rest) : readText cs = .ok (String.ofList s, rest) := by
  rw [Json.readText, h.readChars]
  rfl

/-- A string is passed over. -/
theorem skipChars (h : Chars s cs rest) : skipChars cs = .ok rest := by
  induction h with
  | close => rw [Json.skipChars]
  | plain hc hquote hbackslash _ ih =>
    rw [skipChars_plain (Nat.not_lt.mpr hc) hquote hbackslash, ih]
  | letter hl _ ih =>
    obtain ⟨hletter, hu⟩ := letterEscape?_of_mem hl
    rw [skipChars_escape (by rw [skipEscape, if_neg hu, hletter]), ih]
  | unit hn _ _ _ ih =>
    rw [skipChars_escape (by rw [skipEscape, if_pos rfl, readUnit_eq hn]; rfl), ih]
  | pair hlead _ htrail _ _ ih =>
    rw [skipChars_escape (by rw [skipEscape, if_pos rfl, readUnit_eq hlead]; rfl),
      skipChars_escape (by rw [skipEscape, if_pos rfl, readUnit_eq htrail]; rfl), ih]

end Chars

/-! ### Strings that were written -/

/-- The way in which a control character is written is its number. -/
theorem unitValue?_control {n : Nat} (hn : n < 0x20) :
    unitValue? '0' '0' (Text.Hex.digit (n / 16)) (Text.Hex.digit (n % 16)) = some n := by
  have hzero : Text.Hex.digitValue? '0' = some 0 := by decide
  simp only [unitValue?, hzero, Text.Hex.digitValue?_digit (show n / 16 < 16 by omega),
    Text.Hex.digitValue?_digit (show n % 16 < 16 by omega), bind, Option.bind, pure]
  exact congrArg some (by omega)

namespace Chars

variable {s cs rest : List Char}

/-- The way in which a character is written spells it. -/
theorem escapeChar (c : Char) (h : Chars s cs rest) :
    Chars (c :: s) (escapeChar c ++ cs) rest := by
  unfold Json.escapeChar
  split
  iterate 7 exact .letter (by decide) h
  next hquote hbackslash _ _ _ _ _ =>
    split
    · next hc =>
      have hleading : isLeading c.toNat = false := by
        simp only [isLeading, Bool.and_eq_false_iff, decide_eq_false_iff_not]
        omega
      have htrailing : isTrailing c.toNat = false := by
        simp only [isTrailing, Bool.and_eq_false_iff, decide_eq_false_iff_not]
        omega
      have hunit := Chars.unit (unitValue?_control hc) hleading htrailing h
      rwa [Char.ofNat_toNat] at hunit
    · next hc => exact .plain (Nat.not_lt.mp hc) hquote hbackslash h

/-- What is written between quotes spells what was given. -/
theorem written (s rest : List Char) : Chars s (s.flatMap Json.escapeChar ++ '"' :: rest) rest := by
  induction s with
  | nil => exact .close rest
  | cons c s ih =>
    rw [List.flatMap_cons, List.append_assoc]
    exact ih.escapeChar c

end Chars

/-- A string is spelled by what is written for it. -/
theorem Spells.written_str (s : String) (rest : List Char) :
    Spells (.value (.str s)) (writeString s ++ rest) rest := by
  have h : Spells (.value (.str (String.ofList s.toList))) _ rest := .str (.written s.toList rest)
  rw [String.ofList_toList] at h
  simpa [writeString] using h

/-- A member is spelled by its name and its string as they are written. -/
theorem Spells.written_member (key s : String) (rest : List Char) :
    Spells (.member key (.str s)) (writeString key ++ ':' :: (writeString s ++ rest)) rest := by
  have h : Spells (.member (String.ofList key.toList) _) _ rest :=
    .member (.none _) (.written key.toList _) (.none _)
      (.item (.none _) (.written_str s rest) (.none rest))
  rw [String.ofList_toList] at h
  simpa [writeString] using h

end AppShell.Json
