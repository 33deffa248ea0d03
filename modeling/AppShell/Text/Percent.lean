/-
AppShell/Text/Percent.lean

Percent escapes over UTF-8 bytes.

`decodeBytes` replaces each `%` that two hexadecimal digits follow by the byte
they spell and leaves every other byte alone, so a malformed escape stays as it
is.  `decode?` asks in addition that the result is UTF-8.  `encode` writes the
bytes of a set as `%` and two upper-case digits.
-/
import AppShell.Text.Hex

namespace AppShell.Text.Percent

/-- The byte of the percent sign. -/
def percentByte : UInt8 := 0x25

/-- The byte that two hexadecimal digits spell. -/
def escaped? (hi lo : UInt8) : Option UInt8 := do
  let h ← Hex.digitValue? (Char.ofNat hi.toNat)
  let l ← Hex.digitValue? (Char.ofNat lo.toNat)
  return UInt8.ofNat (16 * h + l)

/-- A byte sequence with its well-formed escapes replaced; fewer than three bytes hold none. -/
def decodeBytes : List UInt8 → List UInt8
  | b :: hi :: lo :: tail =>
    if b = percentByte then
      match escaped? hi lo with
      | some v => v :: decodeBytes tail
      | none => b :: decodeBytes (hi :: lo :: tail)
    else b :: decodeBytes (hi :: lo :: tail)
  | bs => bs
termination_by bs => bs.length

/-- The text behind an escaped text, if its bytes are UTF-8. -/
def decode? (s : String) : Option String :=
  String.fromUTF8? ⟨(decodeBytes s.toUTF8.toList).toArray⟩

/-- One byte as an escape if `mustEscape` holds of it, else as the character it is. -/
def encodeByte (mustEscape : UInt8 → Bool) (b : UInt8) : List Char :=
  if mustEscape b then ['%', Hex.upperDigit (b.toNat / 16), Hex.upperDigit (b.toNat % 16)]
  else [Char.ofNat b.toNat]

/-- A text with the bytes for which `mustEscape` holds written as escapes. -/
def encode (mustEscape : UInt8 → Bool) (s : String) : String :=
  String.ofList (s.toUTF8.toList.flatMap (encodeByte mustEscape))

@[simp] theorem decodeBytes_nil : decodeBytes [] = [] := by
  simp [decodeBytes]

theorem decodeBytes_cons_of_ne {b : UInt8} (h : b ≠ percentByte) :
    ∀ rest : List UInt8, decodeBytes (b :: rest) = b :: decodeBytes rest
  | [] => by simp [decodeBytes]
  | [_] => by simp [decodeBytes]
  | hi :: lo :: tail => by rw [decodeBytes, if_neg h]

end AppShell.Text.Percent
