/-
AppShell/Proofs/Text.lean

Texts that are divided, trimmed and escaped.

A text in pieces is the list of its characters divided at the separator, from
which the library puts it together again (`pieces_eq_splitOn`).

An escaped text consists of ASCII characters, each of which is one byte of its
UTF-8 form (`bytes_ofList`); so it is decoded escape by escape, which gives the
bytes of the text that was escaped.  `Percent.decode?_encode` says so for every
choice of the bytes to escape that has the percent sign and those beyond ASCII.
-/
import Mathlib.Data.List.TakeWhile
import AppShell.Text.Blank
import AppShell.Text.Percent
import AppShell.Text.Pieces

namespace AppShell.Text

/-! ### Pieces -/

/-- The pieces between separators are those of the library's `splitOn`. -/
theorem pieces_eq_splitOn (sep : Char) (cs : List Char) : pieces sep cs = cs.splitOn sep := by
  induction cs with
  | nil => rfl
  | cons c cs ih =>
    rw [pieces, List.splitOn_cons_eq_if_modifyHead, ih]
    by_cases hc : c = sep
    · rw [if_pos hc, if_pos (beq_iff_eq.2 hc)]
    · rw [if_neg hc, if_neg (fun h => hc (beq_iff_eq.1 h))]
      rcases hp : cs.splitOn sep with - | ⟨piece, rest⟩
      · exact absurd hp (List.splitOn_ne_nil sep cs)
      · rfl

theorem takeWhile_eq_self {p : Char → Bool} {cs : List Char} (h : ∀ c ∈ cs, p c = true) :
    cs.takeWhile p = cs := by
  induction cs with
  | nil => rfl
  | cons c cs ih =>
    rw [List.takeWhile_cons_of_pos (h c List.mem_cons_self), ih fun d hd =>
      h d (List.mem_cons_of_mem _ hd)]

/-! ### Blanks -/

theorem dropWhile_eq_self {p : Char → Bool} {cs : List Char} (h : ∀ c ∈ cs, p c = false) :
    cs.dropWhile p = cs := by
  cases cs with
  | nil => rfl
  | cons c cs =>
    have hc : ¬ p c = true := Bool.eq_false_iff.1 (h c List.mem_cons_self)
    exact List.dropWhile_cons_of_neg hc

/-- A text without blanks is not trimmed. -/
theorem trimChars_eq_self {cs : List Char} (h : ∀ c ∈ cs, isBlank c = false) :
    trimChars cs = cs := by
  rw [trimChars, dropWhile_eq_self h, dropWhile_eq_self fun c hc => h c (List.mem_reverse.1 hc),
    List.reverse_reverse]

/-- Blanks are trimmed up to the first and from the last character that is none. -/
theorem trimChars_append {before word behind : List Char} (hbefore : ∀ c ∈ before, isBlank c = true)
    (hfirst : ∃ c tail, word = c :: tail ∧ isBlank c = false)
    (hlast : ∃ front c, word = front ++ [c] ∧ isBlank c = false)
    (hbehind : ∀ c ∈ behind, isBlank c = true) : trimChars (before ++ (word ++ behind)) = word := by
  have hdrop : (before ++ (word ++ behind)).dropWhile isBlank = word ++ behind := by
    obtain ⟨c, tail, rfl, hc⟩ := hfirst
    rw [List.dropWhile_append_of_pos hbefore, List.cons_append,
      List.dropWhile_cons_of_neg (Bool.eq_false_iff.1 hc)]
  have hdropReverse : (word ++ behind).reverse.dropWhile isBlank = word.reverse := by
    obtain ⟨front, c, rfl, hc⟩ := hlast
    rw [List.reverse_append, List.dropWhile_append_of_pos fun d hd =>
      hbehind d (List.mem_reverse.1 hd), List.reverse_concat,
      List.dropWhile_cons_of_neg (Bool.eq_false_iff.1 hc)]
  rw [trimChars, hdrop, hdropReverse, List.reverse_reverse]

/-- White space at the ends of a text does not count. -/
theorem trimChars_pad {before behind : List Char} (hbefore : ∀ c ∈ before, isBlank c = true)
    (hbehind : ∀ c ∈ behind, isBlank c = true) (cs : List Char) :
    trimChars (before ++ (cs ++ behind)) = trimChars cs := by
  have hreverse : ∀ c ∈ behind.reverse, isBlank c = true := fun c hc =>
    hbehind c (List.mem_reverse.1 hc)
  rw [trimChars, trimChars, List.dropWhile_append_of_pos hbefore, List.dropWhile_append]
  by_cases hcs : cs.dropWhile isBlank = []
  · -- nothing but white space
    rw [hcs, List.dropWhile_eq_nil_iff.2 hbehind]
    rfl
  · rw [if_neg (by simpa using hcs), List.reverse_append, List.dropWhile_append_of_pos hreverse]

/-- A text is all white space when nothing is left of it after trimming. -/
theorem trimChars_eq_nil_iff {cs : List Char} :
    trimChars cs = [] ↔ ∀ c ∈ cs, isBlank c = true := by
  rw [trimChars, List.reverse_eq_nil_iff, List.dropWhile_eq_nil_iff]
  constructor
  · intro h c hc
    rw [← List.takeWhile_append_dropWhile (p := isBlank) (l := cs)] at hc
    rcases List.mem_append.1 hc with hc | hc
    · exact List.mem_takeWhile_imp hc
    · exact h c (List.mem_reverse.2 hc)
  · intro h c hc
    exact h c ((List.dropWhile_suffix isBlank).mem (List.mem_reverse.1 hc))

/-- What is left of a text does not start with white space. -/
theorem isBlank_head?_trimChars {cs : List Char} {c : Char} (h : (trimChars cs).head? = some c) :
    isBlank c = false := by
  -- what is left is the front of what follows the first blanks
  have hfront : trimChars cs <+: cs.dropWhile isBlank := by
    rw [trimChars, ← List.reverse_suffix, List.reverse_reverse]
    exact List.dropWhile_suffix isBlank
  obtain ⟨rest, hrest⟩ := hfront
  have hhead := List.head?_dropWhile_not isBlank cs
  rwa [← hrest, List.head?_append, h] at hhead

/-- What is left of a text does not end with white space. -/
theorem isBlank_getLast?_trimChars {cs : List Char} {c : Char}
    (h : (trimChars cs).getLast? = some c) : isBlank c = false := by
  rw [trimChars, List.getLast?_reverse] at h
  have hhead := List.head?_dropWhile_not isBlank (cs.dropWhile isBlank).reverse
  rwa [h] at hhead

/-! ### ASCII characters -/

/-- An ASCII code is that of its character. -/
theorem toNat_ofNat_ascii {n : Nat} (h : n < 128) : (Char.ofNat n).toNat = n := by
  have hvalid : n.isValidChar := .inl (by omega)
  rw [Char.ofNat, dif_pos hvalid]
  rfl

/-! ### Bytes of texts -/

/-- The bytes of an array are those of its data. -/
theorem byteArray_toList (bs : ByteArray) : bs.toList = bs.data.toList := by
  -- the loop takes the bytes from `i` on; `r` holds those before, the last first
  have hloop : ∀ n i r, bs.size - i = n →
      ByteArray.toList.loop bs i r = r.reverse ++ bs.data.toList.drop i := by
    intro n
    induction n with
    | zero =>
      intro i r hn
      have hi : bs.data.toList.length ≤ i := by
        rw [Array.length_toList]
        exact Nat.le_of_sub_eq_zero hn
      rw [ByteArray.toList.loop, if_neg (Nat.not_lt.2 (Nat.le_of_sub_eq_zero hn)),
        List.drop_of_length_le hi, List.append_nil]
    | succ n ih =>
      intro i r hn
      have hi : i < bs.size := by omega
      have hget : bs.get! i = bs.data[i] := getElem!_pos bs.data i hi
      have hdrop : bs.data.toList.drop i = bs.data[i] :: bs.data.toList.drop (i + 1) :=
        List.drop_eq_getElem_cons hi
      rw [ByteArray.toList.loop, if_pos hi, ih _ _ (by omega), List.reverse_cons,
        List.append_assoc, hdrop, hget]
      rfl
  exact hloop _ 0 [] rfl

/-- Bytes that spell a text are read as this text. -/
theorem fromUTF8?_bytes (s : String) : String.fromUTF8? ⟨s.toUTF8.toList.toArray⟩ = some s := by
  rw [byteArray_toList, Array.toArray_toList, String.fromUTF8?]
  exact dif_pos s.isValidUTF8

/-- An ASCII character as a byte. -/
def asciiByte (c : Char) : UInt8 :=
  UInt8.ofNat c.toNat

theorem toNat_asciiByte {c : Char} (h : c.toNat < 128) : (asciiByte c).toNat = c.toNat :=
  Nat.mod_eq_of_lt (Nat.lt_trans h (by decide))

/-- The bytes of a text of ASCII characters are the characters. -/
theorem bytes_ofList {cs : List Char} (h : ∀ c ∈ cs, c.toNat < 128) :
    (String.ofList cs).toUTF8.toList = cs.map asciiByte := by
  rw [byteArray_toList]
  show cs.utf8Encode.data.toList = _
  induction cs with
  | nil => rfl
  | cons c cs ih =>
    have hc : c.toNat < 128 := h c List.mem_cons_self
    have hsize : c.utf8Size = 1 := Char.utf8Size_eq_one_iff.2 (by
      show c.val.toNat ≤ 127
      exact Nat.le_of_lt_succ hc)
    rw [List.utf8Encode_cons, ByteArray.toList_data_append, ih fun d hd =>
      h d (List.mem_cons_of_mem _ hd), List.utf8Encode_singleton,
      String.utf8EncodeChar_eq_singleton hsize]
    rfl

/-- An ASCII character is got back from its byte. -/
theorem ofNat_asciiByte {c : Char} (h : c.toNat < 128) : Char.ofNat (asciiByte c).toNat = c := by
  rw [toNat_asciiByte h, Char.ofNat_toNat]

namespace Percent

/-! ### Escapes -/

/-- A text without a percent sign stands for itself. -/
theorem decode?_plain {cs : List Char} (h : ∀ c ∈ cs, c.toNat < 128 ∧ c ≠ '%') :
    decode? (String.ofList cs) = some (String.ofList cs) := by
  have hbytes := bytes_ofList fun c hc => (h c hc).1
  have hplain : decodeBytes (cs.map asciiByte) = cs.map asciiByte := by
    clear hbytes
    induction cs with
    | nil => exact decodeBytes_nil
    | cons c cs ih =>
      obtain ⟨hascii, hne⟩ := h c List.mem_cons_self
      have hbyte : asciiByte c ≠ percentByte := by
        intro hc
        have hnat : c.toNat % 256 = '%'.toNat := congrArg UInt8.toNat hc
        rw [Nat.mod_eq_of_lt (Nat.lt_trans hascii (by decide))] at hnat
        exact hne (Char.toNat_inj.1 hnat)
      rw [List.map_cons, decodeBytes_cons_of_ne hbyte, ih fun d hd =>
        h d (List.mem_cons_of_mem _ hd)]
  rw [decode?, hbytes, hplain, ← hbytes, fromUTF8?_bytes]

variable {mustEscape : UInt8 → Bool}

/-- At least the percent sign and what is not ASCII is escaped. -/
def Escapes (mustEscape : UInt8 → Bool) : Prop :=
  ∀ b, mustEscape b = false → b ≠ percentByte ∧ b < 0x80

/-- A hexadecimal digit is read back as its value. -/
theorem digitValue?_upperDigit {n : Nat} (h : n < 16) :
    Hex.digitValue? (Hex.upperDigit n) = some n := by
  have hall : ∀ m : Fin 16, Hex.digitValue? (Hex.upperDigit m) = some m.val := by decide
  exact hall ⟨n, h⟩

theorem upperDigit_lt {n : Nat} (h : n < 16) : (Hex.upperDigit n).toNat < 128 := by
  have hall : ∀ m : Fin 16, (Hex.upperDigit m).toNat < 128 := by decide
  exact hall ⟨n, h⟩

/-- The two digits of an escape spell its byte. -/
theorem escaped?_digits (b : UInt8) :
    escaped? (asciiByte (Hex.upperDigit (b.toNat / 16))) (asciiByte (Hex.upperDigit (b.toNat % 16))) =
      some b := by
  have hhigh : b.toNat / 16 < 16 := Nat.div_lt_of_lt_mul b.toNat_lt
  have hlow : b.toNat % 16 < 16 := Nat.mod_lt _ (by decide)
  rw [escaped?, ofNat_asciiByte (upperDigit_lt hhigh), ofNat_asciiByte (upperDigit_lt hlow),
    digitValue?_upperDigit hhigh, digitValue?_upperDigit hlow]
  show some (UInt8.ofNat (16 * (b.toNat / 16) + b.toNat % 16)) = some b
  rw [Nat.div_add_mod, UInt8.ofNat_toNat]

theorem toNat_ofNat_byte {b : UInt8} (h : b < 0x80) : (Char.ofNat b.toNat).toNat = b.toNat :=
  toNat_ofNat_ascii h

/-- What a byte is encoded to consists of ASCII characters. -/
theorem ascii_encodeByte (hescapes : Escapes mustEscape) (b : UInt8) :
    ∀ c ∈ encodeByte mustEscape b, c.toNat < 128 := by
  have hb := b.toNat_lt
  intro c hc
  cases hmust : mustEscape b with
  | true =>
    rw [encodeByte, if_pos hmust] at hc
    simp only [List.mem_cons, List.not_mem_nil, or_false] at hc
    rcases hc with rfl | rfl | rfl
    · decide
    · exact upperDigit_lt (by omega)
    · exact upperDigit_lt (by omega)
  | false =>
    rw [encodeByte, hmust, if_neg Bool.false_ne_true] at hc
    rw [List.mem_singleton.1 hc, toNat_ofNat_byte (hescapes b hmust).2]
    exact (hescapes b hmust).2

/-- What is written for a byte is decoded to the byte. -/
theorem decodeBytes_encodeByte (hescapes : Escapes mustEscape) (b : UInt8) (rest : List UInt8) :
    decodeBytes ((encodeByte mustEscape b).map asciiByte ++ rest) = b :: decodeBytes rest := by
  cases hmust : mustEscape b with
  | true =>
    simp only [encodeByte, hmust, if_true, List.map_cons, List.map_nil, List.cons_append,
      List.nil_append]
    rw [decodeBytes, if_pos (by decide), escaped?_digits]
  | false =>
    obtain ⟨hne, hascii⟩ := hescapes b hmust
    have hbyte : asciiByte (Char.ofNat b.toNat) = b := by
      rw [asciiByte, toNat_ofNat_byte hascii, UInt8.ofNat_toNat]
    rw [encodeByte, hmust, if_neg Bool.false_ne_true]
    show decodeBytes (asciiByte (Char.ofNat b.toNat) :: rest) = _
    rw [hbyte, decodeBytes_cons_of_ne hne]

/-- Bytes are got back from their encoding, whichever of them are escaped. -/
theorem decodeBytes_encoded (hescapes : Escapes mustEscape) (bs : List UInt8) :
    decodeBytes ((bs.flatMap (encodeByte mustEscape)).map asciiByte) = bs := by
  induction bs with
  | nil => exact decodeBytes_nil
  | cons b bs ih =>
    rw [List.flatMap_cons, List.map_append, decodeBytes_encodeByte hescapes, ih]

/-- A text that was escaped is read back. -/
theorem decode?_encode (hescapes : Escapes mustEscape) (s : String) :
    decode? (encode mustEscape s) = some s := by
  have hascii : ∀ c ∈ s.toUTF8.toList.flatMap (encodeByte mustEscape), c.toNat < 128 := by
    intro c hc
    obtain ⟨b, -, hb⟩ := List.mem_flatMap.1 hc
    exact ascii_encodeByte hescapes b c hb
  rw [decode?, encode, bytes_ofList hascii, decodeBytes_encoded hescapes, fromUTF8?_bytes]

end Percent

end AppShell.Text
