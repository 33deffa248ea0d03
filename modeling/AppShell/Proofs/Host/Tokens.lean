/-
AppShell/Proofs/Host/Tokens.lean

The digits of a token lose nothing of the bytes that were drawn for it.

A byte is spelled by its number in base sixteen, padded to two digits
(`encodeByte_eq_leftpad`); without the padding bytes would run together
(`not_injective_unpadded`).  With it a text is read pair by pair, and the pair of a
byte is read as that byte whatever stands behind it (`decodePairs?_encodeByte_append`).
By induction on the bytes they are read back from all their digits, and by induction
on the pairs each text of an even number of lower-case digits spells some bytes
(`exists_encodeBytes_eq`).

The main statement is `lossless_ofBytes`; there is no other way to spell bytes in
lower-case digits that are read back as pairs (`Lossless.eq_ofBytes`), and a host takes
the token of its own draw and of no other (`accepts_ofBytes_iff`).
-/
import AppShell.Host.Token
import AppShell.Proofs.Host.Session

namespace AppShell.Text.Hex

/-! ### Digits -/

/-- Whether a character is a lower-case digit of base sixteen. -/
def IsLowerDigit (c : Char) : Prop :=
  ('0' ≤ c ∧ c ≤ '9') ∨ ('a' ≤ c ∧ c ≤ 'f')

instance (c : Char) : Decidable (IsLowerDigit c) :=
  inferInstanceAs (Decidable (_ ∨ _))

/-- What holds every character of a range holds each that lies between the ends of the range. -/
theorem mem_of_between {cs : List Char} {low high c : Char}
    (hall : ∀ m : Fin (high.toNat - low.toNat + 1), Char.ofNat (low.toNat + m) ∈ cs)
    (hlow : low ≤ c) (hhigh : c ≤ high) : c ∈ cs := by
  have hlow : low.toNat ≤ c.toNat := UInt32.le_iff_toNat_le.1 hlow
  have hhigh : c.toNat ≤ high.toNat := UInt32.le_iff_toNat_le.1 hhigh
  have hmem : Char.ofNat (low.toNat + (c.toNat - low.toNat)) ∈ cs :=
    hall ⟨c.toNat - low.toNat, by omega⟩
  rwa [Nat.add_sub_cancel' hlow, Char.ofNat_toNat] at hmem

/-- The sixteen digits are the ASCII digits and the letters from `a` to `f`. -/
theorem mem_lowerDigits_iff {c : Char} : c ∈ lowerDigits ↔ IsLowerDigit c := by
  constructor
  · intro hc
    have hall : lowerDigits.all fun d => IsLowerDigit d := by decide
    exact of_decide_eq_true (List.all_eq_true.1 hall c hc)
  · rintro (⟨hlow, hhigh⟩ | ⟨hlow, hhigh⟩)
    · exact mem_of_between (by decide) hlow hhigh
    · exact mem_of_between (by decide) hlow hhigh

theorem isLowerDigit_digit {n : Nat} (h : n < 16) : IsLowerDigit (digit n) := by
  have hall : ∀ m : Fin 16, IsLowerDigit (digit m) := by decide
  exact hall ⟨n, h⟩

/-- Every lower-case hexadecimal digit is the one of its value. -/
theorem exists_digit_eq {c : Char} (h : IsLowerDigit c) : ∃ n, n < 16 ∧ digit n = c := by
  obtain ⟨n, hn, rfl⟩ := List.mem_iff_getElem.1 (mem_lowerDigits_iff.2 h)
  refine ⟨n, hn, ?_⟩
  rw [digit, List.getD_eq_getElem?_getD, List.getElem?_eq_getElem hn, Option.getD_some]

/-! ### The digits of a byte -/

/-- A byte below sixteen has one digit of its own. -/
theorem encodeByte_of_lt {b : UInt8} (h : b.toNat < 16) : encodeByte b = '0' :: ofNat b.toNat := by
  rw [ofNat, dif_pos h, encodeByte, Nat.div_eq_of_lt h, Nat.mod_eq_of_lt h]
  rfl

/-- A byte of sixteen or more has its numeral for its text. -/
theorem encodeByte_of_ge {b : UInt8} (h : 16 ≤ b.toNat) : encodeByte b = ofNat b.toNat := by
  have hb := b.toNat_lt
  have hhigh : b.toNat / 16 < 16 := by omega
  rw [ofNat, dif_neg (Nat.not_lt.2 h), ofNat, dif_pos hhigh]
  rfl

/-- A byte is spelled by its number, padded with zeros to two digits. -/
theorem encodeByte_eq_leftpad (b : UInt8) :
    encodeByte b = (ofNat b.toNat).leftpad 2 '0' := by
  have hlength : (encodeByte b).length = 2 := rfl
  rcases Nat.lt_or_ge b.toNat 16 with h | h
  · rw [encodeByte_of_lt h, List.length_cons] at hlength
    rw [encodeByte_of_lt h, List.leftpad, Nat.succ.inj hlength]
    rfl
  · rw [encodeByte_of_ge h] at hlength
    rw [encodeByte_of_ge h, List.leftpad, hlength]
    rfl

/-- Numbers without padding do not tell bytes apart: `1`, `23` and `12`, `3` run together. -/
theorem not_injective_unpadded :
    ¬ Function.Injective fun bs : List UInt8 => bs.flatMap fun b => ofNat b.toNat := by
  intro hinjective
  have hmerged : [0x01, 0x23].flatMap (fun b : UInt8 => ofNat b.toNat) =
      [0x12, 0x03].flatMap fun b : UInt8 => ofNat b.toNat := by
    cbv
  exact absurd (hinjective hmerged) (by decide)

/-- A byte is written in lower-case hexadecimal digits. -/
theorem isLowerDigit_encodeByte (b : UInt8) : ∀ c ∈ encodeByte b, IsLowerDigit c := by
  have hb := b.toNat_lt
  intro c hc
  rw [encodeByte, List.mem_cons, List.mem_singleton] at hc
  rcases hc with rfl | rfl
  · exact isLowerDigit_digit (by omega)
  · exact isLowerDigit_digit (by omega)

theorem isLowerDigit_encodeBytes (bs : List UInt8) : ∀ c ∈ encodeBytes bs, IsLowerDigit c := by
  intro c hc
  obtain ⟨b, -, hb⟩ := List.mem_flatMap.1 hc
  exact isLowerDigit_encodeByte b c hb

/-- Any two digits are those of a byte. -/
theorem encodeByte_pair {hi lo : Nat} (hhi : hi < 16) (hlo : lo < 16) :
    encodeByte (UInt8.ofNat (16 * hi + lo)) = [digit hi, digit lo] := by
  have hlt : 16 * hi + lo < 256 := by omega
  have hnat : (UInt8.ofNat (16 * hi + lo)).toNat = 16 * hi + lo := UInt8.toNat_ofNat_of_lt' hlt
  have hdiv : (16 * hi + lo) / 16 = hi := by omega
  have hmod : (16 * hi + lo) % 16 = lo := by omega
  rw [encodeByte, hnat, hdiv, hmod]

/-! ### Pairs of digits -/

/-- The bytes that the digits of a text spell, two for each byte; the case of a digit does not
matter. -/
def decodePairs? : List Char → Option (List UInt8)
  | [] => some []
  | [_] => none
  | hi :: lo :: rest => do
    let h ← digitValue? hi
    let l ← digitValue? lo
    let bs ← decodePairs? rest
    return UInt8.ofNat (16 * h + l) :: bs

/-- The bytes that a text of pairs of digits spells. -/
def decode? (s : String) : Option (List UInt8) :=
  decodePairs? s.toList

/-- The digits of a byte are read as that byte, whatever stands behind them. -/
theorem decodePairs?_encodeByte_append (b : UInt8) (rest : List Char) :
    decodePairs? (encodeByte b ++ rest) = (decodePairs? rest).map (b :: ·) := by
  have hb := b.toNat_lt
  have hhigh : digitValue? (digit (b.toNat / 16)) = some (b.toNat / 16) :=
    digitValue?_digit (by omega)
  have hlow : digitValue? (digit (b.toNat % 16)) = some (b.toNat % 16) :=
    digitValue?_digit (by omega)
  have hbyte : UInt8.ofNat (16 * (b.toNat / 16) + b.toNat % 16) = b := by
    rw [Nat.div_add_mod, UInt8.ofNat_toNat]
  rw [encodeByte, List.cons_append, List.cons_append, List.nil_append, decodePairs?, hhigh, hlow]
  rcases e : decodePairs? rest with - | bs
  · rfl
  · show some (UInt8.ofNat (16 * (b.toNat / 16) + b.toNat % 16) :: bs) = some (b :: bs)
    rw [hbyte]

/-- The digits of bytes are read as those bytes, whatever stands behind them. -/
theorem decodePairs?_encodeBytes_append (bs : List UInt8) (rest : List Char) :
    decodePairs? (encodeBytes bs ++ rest) = (decodePairs? rest).map (bs ++ ·) := by
  induction bs with
  | nil => exact (Option.map_id_apply).symm
  | cons b bs ih =>
    rw [encodeBytes_cons, List.append_assoc, decodePairs?_encodeByte_append, ih, Option.map_map]
    rfl

/-- Bytes are read back from their pairs of digits. -/
theorem decodePairs?_encodeBytes (bs : List UInt8) :
    decodePairs? (encodeBytes bs) = some bs := by
  have happend := decodePairs?_encodeBytes_append bs []
  rwa [List.append_nil, decodePairs?, Option.map_some, List.append_nil] at happend

/-- Bytes are read back from their text. -/
theorem decode?_encode (bs : List UInt8) : decode? (encode bs) = some bs := by
  rw [decode?, encode, String.toList_ofList, decodePairs?_encodeBytes]

/-- Different bytes have different texts. -/
theorem encode_injective : Function.Injective encode := by
  intro as bs h
  have hread := congrArg decode? h
  rw [decode?_encode, decode?_encode] at hread
  exact Option.some.inj hread

/-- The text of two lists of bytes is one text behind the other. -/
theorem encode_append (as bs : List UInt8) : encode (as ++ bs) = encode as ++ encode bs := by
  rw [encode, encodeBytes_append, String.ofList_append]
  rfl

/-- A text has two digits for each byte. -/
theorem length_encode (bs : List UInt8) : (encode bs).length = 2 * bs.length := by
  rw [encode, String.length_ofList, length_encodeBytes]

/-- An even number of lower-case digits spells bytes. -/
theorem exists_encodeBytes_eq {n : Nat} {cs : List Char} (hlength : cs.length = 2 * n)
    (hdigits : ∀ c ∈ cs, IsLowerDigit c) : ∃ bs, bs.length = n ∧ encodeBytes bs = cs := by
  -- by induction on the number of pairs: the first one is a byte, the others are spelled as before
  induction n generalizing cs with
  | zero =>
    obtain rfl := List.length_eq_zero_iff.1 hlength
    exact ⟨[], rfl, rfl⟩
  | succ n ih =>
    rcases cs with - | ⟨hi, - | ⟨lo, rest⟩⟩
    · rw [List.length_nil] at hlength
      omega
    · rw [List.length_singleton] at hlength
      omega
    · rw [List.forall_mem_cons, List.forall_mem_cons] at hdigits
      obtain ⟨hhi, hlo, hrest⟩ := hdigits
      obtain ⟨h, hh, rfl⟩ := exists_digit_eq hhi
      obtain ⟨l, hl, rfl⟩ := exists_digit_eq hlo
      have hlength : rest.length = 2 * n := by
        rw [List.length_cons, List.length_cons] at hlength
        omega
      obtain ⟨bs, hbs, rfl⟩ := ih hlength hrest
      refine ⟨UInt8.ofNat (16 * h + l) :: bs, congrArg (· + 1) hbs, ?_⟩
      rw [encodeBytes_cons, encodeByte_pair hh hl]
      rfl

/-- Every text of lower-case hexadecimal digits, in pairs, is that of some bytes. -/
theorem exists_encode_eq {n : Nat} {s : String} (hlength : s.length = 2 * n)
    (hdigits : ∀ c ∈ s.toList, IsLowerDigit c) : ∃ bs, bs.length = n ∧ encode bs = s := by
  obtain ⟨bs, hbs, he⟩ := exists_encodeBytes_eq (String.length_toList.trans hlength) hdigits
  exact ⟨bs, hbs, by rw [encode, he, String.ofList_toList]⟩

end AppShell.Text.Hex

namespace AppShell.Host.Token

open AppShell.Text

/-- A way to spell bytes that loses nothing: a text has two lower-case digits for each byte and is
read back pair by pair, different bytes have different texts, and bytes that are put together have
their texts put together. -/
structure Lossless (spell : List UInt8 → String) : Prop where
  length : ∀ bs, (spell bs).length = 2 * bs.length
  digits : ∀ bs, (spell bs).toList.all (Hex.IsLowerDigit ·) = true
  decoded : ∀ bs, Hex.decode? (spell bs) = some bs
  distinct : ∀ as bs, spell as = spell bs ↔ as = bs
  append : ∀ as bs, spell (as ++ bs) = spell as ++ spell bs

/-- A text has the form of a token if it has the digits of as many bytes as are drawn. -/
theorem isToken_iff {s : String} :
    isToken s = true ↔ s.length = 2 * byteCount ∧ ∀ c ∈ s.toList, Hex.IsLowerDigit c := by
  rw [isToken, Bool.and_eq_true, beq_iff_eq, String.length_toList, List.all_eq_true]
  refine and_congr_right fun _ => forall₂_congr fun c _ => ?_
  rw [List.contains_iff_mem, Hex.mem_lowerDigits_iff]

theorem isLowerDigit_ofBytes (bs : List UInt8) : ∀ c ∈ (ofBytes bs).toList, Hex.IsLowerDigit c := by
  intro c hc
  rw [ofBytes, Hex.encode, String.toList_ofList] at hc
  exact Hex.isLowerDigit_encodeBytes bs c hc

/-- The form of a token shows how many bytes it spells. -/
theorem isToken_ofBytes_iff {bs : List UInt8} :
    isToken (ofBytes bs) = true ↔ bs.length = byteCount := by
  rw [isToken_iff, and_iff_left (isLowerDigit_ofBytes bs), ofBytes, Hex.length_encode]
  omega

/-- What is drawn is a token: it has the length and the digits of one. -/
theorem isToken_draw (draw : Vector UInt8 byteCount) : isToken (ofBytes draw.toList) = true :=
  isToken_ofBytes_iff.2 draw.length_toList

/-- What has the form of a token is the token of some draw. -/
theorem exists_draw {s : String} (h : isToken s = true) :
    ∃ draw : Vector UInt8 byteCount, ofBytes draw.toList = s := by
  obtain ⟨hlength, hdigits⟩ := isToken_iff.1 h
  obtain ⟨bs, hbs, rfl⟩ := Hex.exists_encode_eq hlength hdigits
  exact ⟨⟨bs.toArray, hbs⟩, rfl⟩

/-- Tokens spell their bytes without loss: those of draws have sixty-four digits, and no other text
has the form of a token. -/
theorem lossless_ofBytes :
    Lossless ofBytes ∧
      (∀ draw : Vector UInt8 byteCount, (ofBytes draw.toList).length = 64) ∧
      ∀ s, isToken s = true ↔ ∃ draw : Vector UInt8 byteCount, ofBytes draw.toList = s := by
  refine ⟨⟨Hex.length_encode, fun bs => ?_, Hex.decode?_encode,
    fun _ _ => Hex.encode_injective.eq_iff, Hex.encode_append⟩, fun draw => ?_, fun s => ?_⟩
  · rw [List.all_eq_true]
    intro c hc
    exact decide_eq_true (isLowerDigit_ofBytes bs c hc)
  · rw [ofBytes, Hex.length_encode, draw.length_toList]
    rfl
  · constructor
    · exact exists_draw
    · rintro ⟨draw, rfl⟩
      exact isToken_draw draw

/-- Bytes can be spelled without loss in one way only. -/
theorem Lossless.eq_ofBytes {spell : List UInt8 → String} (h : Lossless spell) :
    spell = ofBytes := by
  funext bs
  have hdigits : ∀ c ∈ (spell bs).toList, Hex.IsLowerDigit c := fun c hc =>
    of_decide_eq_true (List.all_eq_true.1 (h.digits bs) c hc)
  -- the digits are those of some bytes, and what is read from them tells which
  obtain ⟨bs', -, he⟩ := Hex.exists_encode_eq (h.length bs) hdigits
  have hread : some bs' = some bs := by
    rw [← Hex.decode?_encode bs', he, h.decoded bs]
  rw [← he, Option.some.inj hread, ofBytes]

/-- A host takes the token of its own draw and of no other. -/
theorem accepts_ofBytes_iff {draw candidate : Vector UInt8 byteCount} :
    accepts (ofBytes draw.toList) (ofBytes candidate.toList) = true ↔ candidate = draw := by
  rw [accepts_iff (ne_empty (isToken_draw draw)), ofBytes, ofBytes, Hex.encode_injective.eq_iff,
    Vector.toList_inj]

end AppShell.Host.Token
