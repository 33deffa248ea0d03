/-
AppShell/Decimal/Binary64.lean

Finite double-precision numbers, kept as a sign, a significand and an exponent.

A value is `significand · 2 ^ exponent` with its sign; zero has a sign too.
The fields are canonical: below the least normal number the exponent is
`minExponent`, elsewhere the significand fills all fifty-three bits, so equal
numbers have equal fields.  A factor that is a power of two is written as a shift.

`round` takes an exact quotient to the nearest double, a tie going to the even
significand, and answers `none` where the quotient is too large.  Products and
quotients of doubles are rounded once from their exact values.
-/
namespace AppShell.Decimal

/-- A finite double-precision number. -/
structure Binary64 where
  negative : Bool
  significand : Nat
  exponent : Int
  lt_limit : significand < 0x20000000000000
  exponent_ge : -1074 ≤ exponent
  exponent_le : exponent ≤ 971
  canonical : 0x10000000000000 ≤ significand ∨ exponent = -1074
deriving DecidableEq

namespace Binary64

/-- The exponent of the least positive double. -/
def minExponent : Int := -1074

/-- Zero with the given sign. -/
def zero (negative : Bool) : Binary64 :=
  ⟨negative, 0, -1074, by decide, by decide, by decide, Or.inr rfl⟩

instance : Inhabited Binary64 := ⟨zero false⟩

/-- Whether the number is zero, of either sign. -/
def isZero (x : Binary64) : Bool :=
  x.significand == 0

/-- The same magnitude with the given sign. -/
def withSign (negative : Bool) (x : Binary64) : Binary64 :=
  { x with negative := negative }

/-- The double with these fields, if they are the fields of one. -/
def ofFields? (negative : Bool) (significand : Nat) (exponent : Int) : Option Binary64 :=
  if h : significand < 0x20000000000000 ∧ -1074 ≤ exponent ∧ exponent ≤ 971 ∧
      (0x10000000000000 ≤ significand ∨ exponent = -1074) then
    some ⟨negative, significand, exponent, h.1, h.2.1, h.2.2.1, h.2.2.2⟩
  else none

/-! ### Rounding an exact quotient -/

/-- The quotient `num / den` to the nearest natural number, a tie going to the even one. -/
def divNearest (num den : Nat) : Nat :=
  let q := num / den
  let twice := 2 * (num % den)
  if twice < den then q
  else if den < twice then q + 1
  else if q % 2 = 0 then q else q + 1

/-- The greatest `l` with `2 ^ l ≤ num / den`, for positive `num` and `den`. -/
def floorLog (num den : Nat) : Int :=
  let l : Int := (Nat.log2 num : Int) - (Nat.log2 den : Int)
  if den <<< l.toNat ≤ num <<< (-l).toNat then l else l - 1

/-- The double nearest to the non-negative quotient `num / den`, `none` beyond the largest one. -/
def round (num den : Nat) : Option Binary64 :=
  if num = 0 then some (zero false)
  else
    let e := max (-1074) (floorLog num den - 52)
    let m := divNearest (num <<< (-e).toNat) (den <<< e.toNat)
    if m = 0x20000000000000 then ofFields? false 0x10000000000000 (e + 1)
    else ofFields? false m e

/-- The double nearest to a natural number. -/
def ofNat? (n : Nat) : Option Binary64 :=
  round n 1

/-- The product of two magnitudes. -/
def mul? (x y : Binary64) : Option Binary64 :=
  let e := x.exponent + y.exponent
  round ((x.significand * y.significand) <<< e.toNat) (1 <<< (-e).toNat)

/-- The quotient of two magnitudes, for a divisor other than zero. -/
def div? (x y : Binary64) : Option Binary64 :=
  let e := x.exponent - y.exponent
  round (x.significand <<< e.toNat) (y.significand <<< (-e).toNat)

end Binary64

end AppShell.Decimal
