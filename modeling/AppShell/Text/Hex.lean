/-
AppShell/Text/Hex.lean

Hexadecimal digits.

`digit` and `upperDigit` spell a value below sixteen, `digitValue?` reads a
digit of either case back, and `encode` spells a byte sequence with two
lower-case digits per byte.
-/
namespace AppShell.Text.Hex

/-- The sixteen lower-case digits in order. -/
def lowerDigits : List Char :=
  ['0', '1', '2', '3', '4', '5', '6', '7', '8', '9', 'a', 'b', 'c', 'd', 'e', 'f']

/-- The sixteen upper-case digits in order. -/
def upperDigits : List Char :=
  ['0', '1', '2', '3', '4', '5', '6', '7', '8', '9', 'A', 'B', 'C', 'D', 'E', 'F']

/-- The lower-case digit of a value below sixteen. -/
def digit (n : Nat) : Char := lowerDigits.getD n '0'

/-- The upper-case digit of a value below sixteen. -/
def upperDigit (n : Nat) : Char := upperDigits.getD n '0'

/-- The value of a digit of either case. -/
def digitValue? (c : Char) : Option Nat :=
  if '0' ≤ c ∧ c ≤ '9' then some (c.toNat - '0'.toNat)
  else if 'a' ≤ c ∧ c ≤ 'f' then some (c.toNat - 'a'.toNat + 10)
  else if 'A' ≤ c ∧ c ≤ 'F' then some (c.toNat - 'A'.toNat + 10)
  else none

/-- The two lower-case digits of a byte, the high half first. -/
def encodeByte (b : UInt8) : List Char :=
  [digit (b.toNat / 16), digit (b.toNat % 16)]

/-- A byte sequence as lower-case digits, two for each byte. -/
def encodeBytes (bs : List UInt8) : List Char :=
  bs.flatMap encodeByte

/-- A byte sequence as a text of lower-case digits. -/
def encode (bs : List UInt8) : String :=
  String.ofList (encodeBytes bs)

/-- The digits of a number in base sixteen without leading zeros, `0` for zero. -/
def ofNat (n : Nat) : List Char :=
  if _h : n < 16 then [digit n]
  else ofNat (n / 16) ++ [digit (n % 16)]
termination_by n
decreasing_by omega

theorem digitValue?_digit {n : Nat} (h : n < 16) : digitValue? (digit n) = some n := by
  have : ∀ m : Fin 16, digitValue? (digit m) = some m.val := by decide
  exact this ⟨n, h⟩

@[simp] theorem encodeBytes_cons (b : UInt8) (bs : List UInt8) :
    encodeBytes (b :: bs) = encodeByte b ++ encodeBytes bs := rfl

@[simp] theorem encodeBytes_append (as bs : List UInt8) :
    encodeBytes (as ++ bs) = encodeBytes as ++ encodeBytes bs := by
  simp [encodeBytes]

@[simp] theorem length_encodeBytes (bs : List UInt8) :
    (encodeBytes bs).length = 2 * bs.length := by
  induction bs with
  | nil => rfl
  | cons b bs ih =>
    simp [encodeByte, ih]
    omega

end AppShell.Text.Hex
