/-
AppShell/Proofs/Host/Cookies.lean

Cookies are read as they were written.

A value is written in plain characters, which are neither blank nor a semicolon;
so the line of a cookie is one part, and neither end of the value is trimmed.
What is read is the decoded value, which is the value that was written
(`find?_tokenLine`).
-/
import AppShell.Host.Cookie
import AppShell.Proofs.Text

namespace AppShell.Host.Cookie

open AppShell.Text

/-! ### Plain characters -/

/-- Whether a character is printable, but neither a blank nor a semicolon. -/
def IsPlain (c : Char) : Prop :=
  0x20 < c.toNat ∧ c.toNat < 0x7F ∧ c ≠ ';'

instance (c : Char) : Decidable (IsPlain c) :=
  inferInstanceAs (Decidable (_ ∧ _))

theorem IsPlain.isBlank {c : Char} (h : IsPlain c) : isBlank c = false := by
  obtain ⟨hlow, hhigh, -⟩ := h
  simp only [Text.isBlank, inRanges, blankRanges, List.any_cons, List.any_nil, Bool.or_false,
    Bool.or_eq_false_iff, Bool.and_eq_false_iff, decide_eq_false_iff_not]
  omega

theorem IsPlain.isVisible {c : Char} (h : IsPlain c) : isVisible c = true := by
  have hlow : ' ' ≤ c := UInt32.le_iff_toNat_le.2 (Nat.le_of_lt h.1)
  have hhigh : c ≤ '~' := UInt32.le_iff_toNat_le.2 (Nat.le_of_lt_succ h.2.1)
  simp [Cookie.isVisible, hlow, hhigh]

/-- What must be escaped in a value has the percent sign and all that is not ASCII. -/
theorem escapes_mustEscape : Percent.Escapes mustEscape := by
  intro b hb
  refine ⟨fun hpercent => ?_, ?_⟩
  · rw [hpercent] at hb
    exact absurd hb (by decide)
  · have hhigh := (Bool.or_eq_false_iff.1 (Bool.or_eq_false_iff.1 hb).1).2
    have hlt : b.toNat < 0x7F := UInt8.not_le.1 (of_decide_eq_false hhigh)
    exact Nat.lt_trans hlt (by decide)

/-- Escapes are made of plain characters. -/
theorem isPlain_upperDigit {n : Nat} (h : n < 16) : IsPlain (Hex.upperDigit n) := by
  have hall : ∀ m : Fin 16, IsPlain (Hex.upperDigit m) := by decide
  exact hall ⟨n, h⟩

/-- What is written for a byte is plain. -/
theorem isPlain_encodeByte (b : UInt8) : ∀ c ∈ Percent.encodeByte mustEscape b, IsPlain c := by
  have hb := b.toNat_lt
  intro c hc
  cases hmust : mustEscape b with
  | true =>
    rw [Percent.encodeByte, if_pos hmust] at hc
    simp only [List.mem_cons, List.not_mem_nil, or_false] at hc
    rcases hc with rfl | rfl | rfl
    · decide
    · exact isPlain_upperDigit (by omega)
    · exact isPlain_upperDigit (by omega)
  | false =>
    rw [Percent.encodeByte, hmust, if_neg Bool.false_ne_true] at hc
    obtain rfl := List.mem_singleton.1 hc
    have hascii := (escapes_mustEscape b hmust).2
    obtain ⟨hbounds, hlisted⟩ := Bool.or_eq_false_iff.1 hmust
    obtain ⟨hlow, hhigh⟩ := Bool.or_eq_false_iff.1 hbounds
    have hlow : 0x20 < b.toNat := UInt8.not_le.1 (of_decide_eq_false hlow)
    have hhigh : b.toNat < 0x7F := UInt8.not_le.1 (of_decide_eq_false hhigh)
    refine ⟨?_, ?_, fun hsemicolon => ?_⟩
    · rwa [Percent.toNat_ofNat_byte hascii]
    · rwa [Percent.toNat_ofNat_byte hascii]
    · rw [hsemicolon] at hlisted
      exact absurd hlisted (by decide)

/-- The characters in which a value is written. -/
def written (value : String) : List Char :=
  value.toUTF8.toList.flatMap (Percent.encodeByte mustEscape)

/-- A value is written in plain characters, whatever is in it. -/
theorem isPlain_written {value : String} : ∀ c ∈ written value, IsPlain c := by
  intro c hc
  obtain ⟨b, -, hb⟩ := List.mem_flatMap.1 hc
  exact isPlain_encodeByte b c hb

/-- A value is read back from how it is written. -/
theorem decode?_written (value : String) :
    Percent.decode? (String.ofList (written value)) = some value :=
  Percent.decode?_encode escapes_mustEscape value

theorem trimChars_written (value : String) : trimChars (written value) = written value :=
  trimChars_eq_self fun c hc => (isPlain_written c hc).isBlank

/-! ### The cookie of the token -/

/-- The name and the value of the cookie that holds the token, in front of its attributes. -/
def tokenPair (value : String) : List Char :=
  tokenName.toList ++ '=' :: written value

/-- A cookie's name and value are plain, and so is the mark between them. -/
theorem isPlain_tokenPair {value : String} : ∀ c ∈ tokenPair value, IsPlain c := by
  intro c hc
  rcases List.mem_append.1 hc with hc | hc
  · have hname : tokenName.toList.all fun c => IsPlain c := by decide
    exact of_decide_eq_true (List.all_eq_true.1 hname c hc)
  · rcases List.mem_cons.1 hc with rfl | hc
    · decide
    · exact isPlain_written c hc

/-- No cookie ends the pair it is written in. -/
theorem semicolon_not_mem_tokenPair (value : String) : ';' ∉ tokenPair value :=
  fun h => (isPlain_tokenPair ';' h).2.2 rfl

theorem decode?_tokenName : Percent.decode? tokenName = some tokenName := by
  have hplain : tokenName.toList.all fun c => c.toNat < 128 ∧ c ≠ '%' := by decide
  exact Percent.decode?_plain fun c hc => of_decide_eq_true (List.all_eq_true.1 hplain c hc)

/-- In front of the mark stands the name. -/
theorem takeWhile_tokenPair (value : String) :
    (tokenPair value).takeWhile (· != '=') = tokenName.toList :=
  rfl

/-- From the mark on stands the value as it is written. -/
theorem dropWhile_tokenPair (value : String) :
    (tokenPair value).dropWhile (· != '=') = '=' :: written value :=
  rfl

/-- The cookie of the token is read as it was written. -/
theorem parsePart_tokenPair (value : String) :
    parsePart (tokenPair value) = some (tokenName, value) := by
  have hname : trimChars tokenName.toList = tokenName.toList := by decide
  have htext : String.ofList tokenName.toList = tokenName := String.ofList_toList
  simp only [parsePart, takeWhile_tokenPair, dropWhile_tokenPair, hname, htext, trimChars_written,
    decode?_written, decode?_tokenName]
  rfl

/-- A request with a line that holds the cookie of the token and nothing else. -/
theorem find?_tokenPair (value : String) :
    find? tokenName [String.ofList (tokenPair value)] = some value := by
  have hvisible : (tokenPair value).all isVisible = true :=
    List.all_eq_true.2 fun c hc => (isPlain_tokenPair c hc).isVisible
  have hpieces : pieces ';' (tokenPair value) = [tokenPair value] := by
    rw [pieces_eq_splitOn]
    exact List.splitOn_eq_singleton (semicolon_not_mem_tokenPair value)
  have hline : parseLine (String.ofList (tokenPair value)) = [(tokenName, value)] := by
    rw [parseLine, String.toList_ofList, if_pos hvisible, hpieces]
    exact List.filterMap_cons_some (parsePart_tokenPair value)
  rw [find?, List.flatMap_singleton, hline]
  rfl

end AppShell.Host.Cookie
