/-
AppShell/Json/Number.lean

Numbers of a JSON text.

`scanNumber` splits a number into the digits before the point, those after it
and its exponent; what may stand where is decided there alone.  `Literal.value`
then gives the number.  A literal without point and exponent is an integer if
it fits into 64 bits.  Everything else is a double: its digits go into a 64-bit
significand as long as they fit, the place of the point and the digits left out
become a power of ten, and the significand is multiplied or divided by that
power with one rounding each.
-/
import AppShell.Json.Basic
import AppShell.Json.Fault

namespace AppShell.Json

open AppShell.Decimal

/-! ### The grammar of a number -/

/-- The parts of a number; an empty fraction means that there is no point. -/
structure Literal where
  negative : Bool
  whole : List Char
  fraction : List Char
  exponent : Option (Bool × List Char)
deriving DecidableEq

/-- The digits at the start of a sequence, and what follows them. -/
def takeDigits (cs : List Char) : List Char × List Char :=
  (cs.takeWhile Char.isDigit, cs.dropWhile Char.isDigit)

/-- The digits at the start, of which there must be one; `atEnd` is the cause if the text ends. -/
def needDigits (atEnd : Cause) (cs : List Char) : Except Fault (List Char × List Char) :=
  match takeDigits cs with
  | ([], []) => .error (.before atEnd [])
  | ([], rest) => .error (.inside .invalidNumber rest)
  | found => .ok found

/-- The digits before the point: a zero stands alone. -/
def scanWhole (atEnd : Cause) (cs : List Char) : Except Fault (List Char × List Char) :=
  match needDigits atEnd cs with
  | .error f => .error f
  | .ok ('0' :: d :: more, rest) => .error (.inside .invalidNumber (d :: more ++ rest))
  | .ok found => .ok found

/-- The digits after the point, none if there is no point. -/
def scanFraction (atEnd : Cause) : List Char → Except Fault (List Char × List Char)
  | '.' :: rest => needDigits atEnd rest
  | rest => .ok ([], rest)

/-- The sign of an exponent, and what follows it. -/
def scanSign : List Char → Bool × List Char
  | '+' :: rest => (false, rest)
  | '-' :: rest => (true, rest)
  | rest => (false, rest)

/-- The sign and the digits of an exponent, if there is one. -/
def scanExponent (atEnd : Cause) :
    List Char → Except Fault (Option (Bool × List Char) × List Char)
  | c :: rest =>
    if c = 'e' ∨ c = 'E' then
      let (negative, rest) := scanSign rest
      (needDigits atEnd rest).map fun (digits, rest) => (some (negative, digits), rest)
    else .ok (none, c :: rest)
  | [] => .ok (none, [])

/-- A number without its sign. -/
def scanNumber (atEnd : Cause) (negative : Bool) (cs : List Char) :
    Except Fault (Literal × List Char) := do
  let (whole, rest) ← scanWhole atEnd cs
  let (fraction, rest) ← scanFraction atEnd rest
  let (exponent, rest) ← scanExponent atEnd rest
  return (⟨negative, whole, fraction, exponent⟩, rest)

/-! ### The value of a number -/

/-- The value of a digit. -/
def digitValue (c : Char) : Nat := c.toNat - '0'.toNat

/-- Appends digits to a number while it stays at most `limit`, and gives back the others. -/
def absorb (limit : Nat) (acc : Nat) : List Char → Nat × List Char
  | [] => (acc, [])
  | d :: ds =>
    let next := acc * 10 + digitValue d
    if limit < next then (acc, d :: ds) else absorb limit next ds

/-- The greatest significand. -/
def significandLimit : Nat := 0xFFFFFFFFFFFFFFFF

/-- The greatest exponent that is counted. -/
def exponentLimit : Nat := 0x7FFFFFFF

/-- The greatest power of ten that is a double. -/
def powerLimit : Nat := 308

/-- A power of ten as a double; zero stands for those that are none. -/
def power (e : Nat) : Binary64 :=
  (Binary64.ofNat? (Nat.pow 10 e)).getD (.zero false)

/-- `x` divided by the `e`-th power of ten, in steps of the greatest power. -/
def divPower (x : Binary64) (e : Nat) : Option Binary64 :=
  if _h : powerLimit < e then
    if x.isZero then some x
    else match x.div? (power powerLimit) with
      | none => none
      | some y => divPower y (e - powerLimit)
  else x.div? (power e)
termination_by e
decreasing_by simp [powerLimit] at *; omega

/-- `x` multiplied by the `e`-th power of ten, `none` if the product is too large. -/
def mulPower (x : Binary64) (e : Nat) : Option Binary64 :=
  if powerLimit < e then (if x.isZero then some x else none)
  else x.mul? (power e)

/-- A significand times a power of ten, `none` if it is too large. -/
def scaled? (significand : Nat) (e : Int) : Option Binary64 :=
  (Binary64.ofNat? significand).bind fun x =>
    if e < 0 then divPower x e.natAbs else mulPower x e.natAbs

namespace Literal

/-- The significand of a literal, and the power of ten that its digits leave for it. -/
def significand (n : Literal) : Nat × Int :=
  let (acc, excess) := absorb significandLimit 0 n.whole
  let (acc', excess') := absorb significandLimit acc n.fraction
  (acc', (excess.length : Int) - ((n.fraction.length : Int) - excess'.length))

/-- The integer of a literal without point and exponent, if it fits into 64 bits. -/
def integer? (n : Literal) : Option Int :=
  match n.fraction, n.exponent, absorb significandLimit 0 n.whole with
  | [], none, (acc, []) =>
    if !n.negative then some acc
    else if 0 < acc ∧ acc ≤ 0x8000000000000000 then some (-(acc : Int)) else none
  | _, _, _ => none

/-- The number of a literal, or else the number of its last characters that are beyond the fault. -/
def value (n : Literal) : Except Nat Json :=
  match n.integer? with
  | some i => .ok (.int i)
  | none =>
    let (acc, e) := n.significand
    let sized (e : Int) : Except Nat Json :=
      match scaled? acc e with
      | some d => .ok (.double (d.withSign n.negative))
      | none => .error 0
    match n.exponent with
    | none => sized e
    | some (negative, digits) =>
      match absorb exponentLimit 0 digits with
      | (shift, []) => sized (if negative then e - shift else e + shift)
      | (_, excess) =>
        if acc ≠ 0 ∧ !negative then .error (excess.length - 1)
        else .ok (.double (.zero n.negative))

end Literal

/-! ### Reading and skipping -/

/-- A number without its sign, and what follows it. -/
def readNumber (negative : Bool) (cs : List Char) : Except Fault (Json × List Char) :=
  match scanNumber .endOfValue negative cs with
  | .error f => .error f
  | .ok (n, rest) =>
    match n.value with
    | .ok v => .ok (v, rest)
    | .error excess => .error ⟨.numberOutOfRange, byteLength rest + excess⟩

/-- What follows a number without its sign. -/
def skipNumber (cs : List Char) : Except Fault (List Char) :=
  (scanNumber .invalidNumber false cs).map Prod.snd

end AppShell.Json
