/-
AppShell/Proofs/Json/Extent.lean

Which part of a text a phrase takes up.

The grammar never looks at what follows a phrase: the characters that a phrase
takes up are the same phrase in front of any other text (`Spells.exists_word`).
A value neither begins nor ends with white space, so a text that is trimmed says
what it said before (`IsText.trimChars`).  The white space of Unicode is more than
the four blanks between tokens, but no more than these can stand around a value.
-/
import AppShell.Proofs.Json.Skipping
import AppShell.Proofs.Json.Values
import AppShell.Proofs.Text

namespace AppShell.Json

open AppShell.Text

/-! ### White space -/

theorem isBlank_of_isSpace {c : Char} (h : isSpace c = true) : isBlank c = true := by
  simp only [isSpace, Bool.or_eq_true, beq_iff_eq] at h
  rcases h with ((rfl | rfl) | rfl) | rfl <;> decide

theorem isBlank_of_isDigit {c : Char} (h : c.isDigit = true) : isBlank c = false := by
  simp only [Char.isDigit, Bool.and_eq_true, decide_eq_true_eq] at h
  have hlow : 48 ≤ c.toNat := UInt32.le_iff_toNat_le.1 h.1
  have hhigh : c.toNat ≤ 57 := UInt32.le_iff_toNat_le.1 h.2
  simp [isBlank, inRanges, blankRanges]
  omega

/-- No value starts with white space. -/
theorem Tree.Starts.isBlank {v : Tree} {c : Char} (h : v.Starts c) : isBlank c = false := by
  rcases v with - | b | n | s | vs | ms
  · cases h; decide
  · cases b <;> cases h <;> decide
  · rcases h with rfl | hc
    · decide
    · exact isBlank_of_isDigit hc
  all_goals cases h; decide

/-! ### Words -/

/-- The word is what a phrase takes up, whatever follows. -/
def Covers (phrase : List Char → List Char → Prop) (word : List Char) : Prop :=
  ∀ rest, phrase (word ++ rest) rest

/-- Whether there is a last character, which is not white space. -/
def EndsSolid (word : List Char) : Prop :=
  ∃ front c, word = front ++ [c] ∧ isBlank c = false

/-- A text ends solidly when its last part does. -/
theorem EndsSolid.append {word : List Char} (h : EndsSolid word) (front : List Char) :
    EndsSolid (front ++ word) := by
  obtain ⟨front', c, rfl, hc⟩ := h
  exact ⟨front ++ front', c, (List.append_assoc ..).symm, hc⟩

section Tokens

variable {ds cs rest : List Char}

/-- Blanks are a word of their own, blank all over. -/
theorem Spaces.exists_word (h : Spaces cs rest) :
    ∃ word, cs = word ++ rest ∧ Covers Spaces word ∧ ∀ c ∈ word, isBlank c = true := by
  induction h with
  | none rest => exact ⟨[], rfl, .none, nofun⟩
  | @blank c cs rest hc _ ih =>
    obtain ⟨word, rfl, hcovers, hblank⟩ := ih
    exact ⟨c :: word, rfl, fun rest => .blank hc (hcovers rest),
      List.forall_mem_cons.2 ⟨isBlank_of_isSpace hc, hblank⟩⟩

theorem Digits.exists_word (h : Digits ds cs rest) :
    ∃ word, cs = word ++ rest ∧ Covers (Digits ds) word ∧ ∀ c ∈ word, isBlank c = false :=
  ⟨ds, h.text, fun _ => ⟨rfl, h.digits, h.ne_nil⟩, fun d hd => isBlank_of_isDigit (h.digits d hd)⟩

/-- The part in front of the point is a word without blanks. -/
theorem Whole.exists_word (h : Whole ds cs rest) :
    ∃ word, cs = word ++ rest ∧ Covers (Whole ds) word ∧ ∀ c ∈ word, isBlank c = false := by
  cases h with
  | zero => exact ⟨['0'], rfl, .zero, List.forall_mem_singleton.2 rfl⟩
  | digits hd h =>
    obtain ⟨word, hword, hcovers, hsolid⟩ := h.exists_word
    exact ⟨word, hword, fun rest => .digits hd (hcovers rest), hsolid⟩

/-- A fraction is a word without blanks. -/
theorem Fraction.exists_word (h : Fraction ds cs rest) :
    ∃ word, cs = word ++ rest ∧ Covers (Fraction ds) word ∧ ∀ c ∈ word, isBlank c = false := by
  cases h with
  | none => exact ⟨[], rfl, .none, nofun⟩
  | digits h =>
    obtain ⟨word, rfl, hcovers, hsolid⟩ := h.exists_word
    exact ⟨'.' :: word, rfl, fun rest => .digits (hcovers rest),
      List.forall_mem_cons.2 ⟨by decide, hsolid⟩⟩

/-- A sign is a word without blanks. -/
theorem ExponentSign.exists_word {negative : Bool} (h : ExponentSign negative cs rest) :
    ∃ word, cs = word ++ rest ∧ Covers (ExponentSign negative) word ∧
      ∀ c ∈ word, isBlank c = false := by
  cases h with
  | none => exact ⟨[], rfl, .none, nofun⟩
  | plus => exact ⟨['+'], rfl, .plus, List.forall_mem_singleton.2 rfl⟩
  | minus => exact ⟨['-'], rfl, .minus, List.forall_mem_singleton.2 rfl⟩

/-- An exponent is a word without blanks. -/
theorem Exponent.exists_word {e : Option (Bool × List Char)} (h : Exponent e cs rest) :
    ∃ word, cs = word ++ rest ∧ Covers (Exponent e) word ∧ ∀ c ∈ word, isBlank c = false := by
  cases h with
  | none => exact ⟨[], rfl, .none, nofun⟩
  | @digits e _ _ _ _ _ he hsign hdigits =>
    obtain ⟨sign, rfl, hcoversSign, hsolidSign⟩ := hsign.exists_word
    obtain ⟨word, rfl, hcovers, hsolid⟩ := hdigits.exists_word
    have hletter : isBlank e = false := by rcases he with rfl | rfl <;> decide
    refine ⟨e :: (sign ++ word), by rw [List.cons_append, List.append_assoc], fun rest => ?_,
      List.forall_mem_cons.2 ⟨hletter, List.forall_mem_append.2 ⟨hsolidSign, hsolid⟩⟩⟩
    rw [List.cons_append, List.append_assoc]
    exact .digits he (hcoversSign _) (hcovers rest)

/-- A number without its minus sign is a word without blanks. -/
theorem Magnitude.exists_word {n : Literal} (h : Magnitude n cs rest) :
    ∃ word, cs = word ++ rest ∧ Covers (Magnitude n) word ∧ ∀ c ∈ word, isBlank c = false := by
  obtain ⟨hwhole, hfraction, hexponent⟩ := h
  obtain ⟨whole, rfl, hcoversWhole, hsolidWhole⟩ := hwhole.exists_word
  obtain ⟨fraction, rfl, hcoversFraction, hsolidFraction⟩ := hfraction.exists_word
  obtain ⟨exponent, rfl, hcoversExponent, hsolidExponent⟩ := hexponent.exists_word
  refine ⟨whole ++ (fraction ++ exponent), by simp only [List.append_assoc], fun rest => ?_,
    List.forall_mem_append.2 ⟨hsolidWhole, List.forall_mem_append.2
      ⟨hsolidFraction, hsolidExponent⟩⟩⟩
  rw [List.append_assoc, List.append_assoc]
  exact .parts (hcoversWhole _) (hcoversFraction _) (hcoversExponent rest)

/-- A number is a word without blanks. -/
theorem Numeral.exists_word {n : Literal} (h : Numeral n cs rest) :
    ∃ word, cs = word ++ rest ∧ Covers (Numeral n) word ∧ ∀ c ∈ word, isBlank c = false := by
  cases h with
  | plain hsign h =>
    obtain ⟨word, hword, hcovers, hsolid⟩ := h.exists_word
    exact ⟨word, hword, fun rest => .plain hsign (hcovers rest), hsolid⟩
  | minus hsign h =>
    obtain ⟨word, rfl, hcovers, hsolid⟩ := h.exists_word
    exact ⟨'-' :: word, rfl, fun rest => .minus hsign (hcovers rest),
      List.forall_mem_cons.2 ⟨by decide, hsolid⟩⟩

/-- A string ends with its quote. -/
theorem Chars.exists_word {s : List Char} (h : Chars s cs rest) :
    ∃ word, cs = word ++ rest ∧ Covers (Chars s) word ∧ EndsSolid word := by
  induction h with
  | close => exact ⟨['"'], rfl, .close, [], '"', rfl, by decide⟩
  | @plain c _ _ _ hc hquote hbackslash _ ih =>
    obtain ⟨word, rfl, hcovers, hsolid⟩ := ih
    exact ⟨c :: word, rfl, fun rest => .plain hc hquote hbackslash (hcovers rest),
      hsolid.append [c]⟩
  | @letter l _ _ _ _ hl _ ih =>
    obtain ⟨word, rfl, hcovers, hsolid⟩ := ih
    exact ⟨'\\' :: l :: word, rfl, fun rest => .letter hl (hcovers rest), hsolid.append ['\\', l]⟩
  | @unit a b c d _ _ _ _ hn hleading htrailing _ ih =>
    obtain ⟨word, rfl, hcovers, hsolid⟩ := ih
    exact ⟨'\\' :: 'u' :: a :: b :: c :: d :: word, rfl,
      fun rest => .unit hn hleading htrailing (hcovers rest),
      hsolid.append ['\\', 'u', a, b, c, d]⟩
  | @pair a b c d a' b' c' d' _ _ _ _ _ hlead hleading htrail htrailing _ ih =>
    obtain ⟨word, rfl, hcovers, hsolid⟩ := ih
    exact ⟨'\\' :: 'u' :: a :: b :: c :: d :: '\\' :: 'u' :: a' :: b' :: c' :: d' :: word, rfl,
      fun rest => .pair hlead hleading htrail htrailing (hcovers rest),
      hsolid.append ['\\', 'u', a, b, c, d, '\\', 'u', a', b', c', d']⟩

end Tokens

/-! ### Phrases -/

/-- How the word of a phrase ends: blanks may stand behind a single entry, and nowhere else. -/
def Phrase.Ends (word : List Char) : Phrase → Prop
  | .item _ | .member _ _ => True
  | _ => EndsSolid word

/-- A phrase takes up a word that is the same phrase in front of any text. -/
theorem Spells.exists_word {p : Phrase} {cs rest : List Char} (h : Spells p cs rest) :
    ∃ word, cs = word ++ rest ∧ Covers (Spells p) word ∧ p.Ends word := by
  induction h with
  | null => exact ⟨['n', 'u', 'l', 'l'], rfl, .null, ['n', 'u', 'l'], 'l', rfl, by decide⟩
  | boolTrue => exact ⟨['t', 'r', 'u', 'e'], rfl, .boolTrue, ['t', 'r', 'u'], 'e', rfl, by decide⟩
  | boolFalse =>
    exact ⟨['f', 'a', 'l', 's', 'e'], rfl, .boolFalse, ['f', 'a', 'l', 's'], 'e', rfl, by decide⟩
  | number h =>
    -- a number has no blank anywhere, and it is not empty
    obtain ⟨word, rfl, hcovers, hsolid⟩ := h.exists_word
    refine ⟨word, rfl, fun rest => .number (hcovers rest), ?_⟩
    have hne : word ≠ [] := by
      rintro rfl
      exact Nat.lt_irrefl _ h.length_lt
    exact ⟨word.dropLast, word.getLast hne, (List.dropLast_concat_getLast hne).symm,
      hsolid _ (List.getLast_mem hne)⟩
  | str h =>
    obtain ⟨word, rfl, hcovers, hsolid⟩ := h.exists_word
    exact ⟨'"' :: word, rfl, fun rest => .str (hcovers rest), hsolid.append ['"']⟩
  | emptyList h =>
    obtain ⟨blanks, rfl, hcovers, -⟩ := h.exists_word
    refine ⟨'[' :: (blanks ++ [']']), by simp, fun rest => ?_, '[' :: blanks, ']', rfl, by decide⟩
    rw [List.cons_append, List.append_assoc]
    exact .emptyList (hcovers _)
  | emptyObject h =>
    obtain ⟨blanks, rfl, hcovers, -⟩ := h.exists_word
    refine ⟨'{' :: (blanks ++ ['}']), by simp, fun rest => ?_, '{' :: blanks, '}', rfl, by decide⟩
    rw [List.cons_append, List.append_assoc]
    exact .emptyObject (hcovers _)
  | list _ ih =>
    obtain ⟨word, rfl, hcovers, hsolid⟩ := ih
    exact ⟨'[' :: word, rfl, fun rest => .list (hcovers rest), EndsSolid.append hsolid ['[']⟩
  | object _ ih =>
    obtain ⟨word, rfl, hcovers, hsolid⟩ := ih
    exact ⟨'{' :: word, rfl, fun rest => .object (hcovers rest), EndsSolid.append hsolid ['{']⟩
  | item hbefore _ hbehind ih =>
    -- the blanks behind a value belong to the entry, so nothing is said about its end
    obtain ⟨before, rfl, hcoversBefore, -⟩ := hbefore.exists_word
    obtain ⟨word, rfl, hcovers, -⟩ := ih
    obtain ⟨behind, rfl, hcoversBehind, -⟩ := hbehind.exists_word
    refine ⟨before ++ (word ++ behind), by simp only [List.append_assoc], fun rest => ?_, trivial⟩
    rw [List.append_assoc, List.append_assoc]
    exact .item (hcoversBefore _) (hcovers _) (hcoversBehind rest)
  | lastItem _ ih =>
    obtain ⟨word, rfl, hcovers, -⟩ := ih
    refine ⟨word ++ [']'], by simp, fun rest => ?_, word, ']', rfl, by decide⟩
    rw [List.append_assoc]
    exact .lastItem (hcovers _)
  | nextItem _ _ ih ih' =>
    obtain ⟨word, rfl, hcovers, -⟩ := ih
    obtain ⟨words, rfl, hcovers', hsolid⟩ := ih'
    refine ⟨word ++ ',' :: words, by simp, fun rest => ?_,
      EndsSolid.append (EndsSolid.append hsolid [',']) word⟩
    rw [List.append_assoc]
    exact .nextItem (hcovers _) (hcovers' rest)
  | member hbefore hkey hbehind _ ih =>
    obtain ⟨before, rfl, hcoversBefore, -⟩ := hbefore.exists_word
    obtain ⟨key, rfl, hcoversKey, -⟩ := hkey.exists_word
    obtain ⟨behind, rfl, hcoversBehind, -⟩ := hbehind.exists_word
    obtain ⟨word, rfl, hcovers, -⟩ := ih
    refine ⟨before ++ '"' :: (key ++ (behind ++ ':' :: word)), by simp, fun rest => ?_, trivial⟩
    simp only [List.append_assoc, List.cons_append]
    exact .member (hcoversBefore _) (hcoversKey _) (hcoversBehind _) (hcovers rest)
  | lastMember _ ih =>
    obtain ⟨word, rfl, hcovers, -⟩ := ih
    refine ⟨word ++ ['}'], by simp, fun rest => ?_, word, '}', rfl, by decide⟩
    rw [List.append_assoc]
    exact .lastMember (hcovers _)
  | nextMember _ _ ih ih' =>
    obtain ⟨word, rfl, hcovers, -⟩ := ih
    obtain ⟨words, rfl, hcovers', hsolid⟩ := ih'
    refine ⟨word ++ ',' :: words, by simp, fun rest => ?_,
      EndsSolid.append (EndsSolid.append hsolid [',']) word⟩
    rw [List.append_assoc]
    exact .nextMember (hcovers _) (hcovers' rest)

/-! ### Trimmed texts -/

/-- Trimming takes the blanks around the value and nothing else. -/
theorem IsText.trimChars {t : Tree} {cs : List Char} (h : IsText t cs) :
    IsText t (trimChars cs) := by
  cases h with
  | item hbefore hvalue hbehind =>
    obtain ⟨before, rfl, -, hbeforeBlank⟩ := hbefore.exists_word
    obtain ⟨word, rfl, hcovers, hlast⟩ := hvalue.exists_word
    obtain ⟨behind, rfl, -, hbehindBlank⟩ := hbehind.exists_word
    -- the word of the value is a text by itself
    have htext := hcovers []
    rw [List.append_nil] at htext
    obtain ⟨c, tail, hword, hstarts⟩ := htext.exists_head
    have hfirst : ∃ c tail, word = c :: tail ∧ isBlank c = false :=
      ⟨c, tail, hword, hstarts.isBlank⟩
    rw [List.append_nil, trimChars_append hbeforeBlank hfirst hlast hbehindBlank]
    exact .item (.none word) htext (.none [])

/-- A text without the white space at its ends is spelled as the text is. -/
theorem IsSpelling.trimChars {v : Json} {cs : List Char} (h : IsSpelling v cs) :
    IsSpelling v (trimChars cs) := by
  obtain ⟨t, htext, hvalue⟩ := h
  exact ⟨t, htext.trimChars, hvalue⟩

end AppShell.Json
