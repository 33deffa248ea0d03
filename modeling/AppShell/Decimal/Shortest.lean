/-
AppShell/Decimal/Shortest.lean

The shortest decimal text of a double.

The reals that round to a double form an interval around it, whose ends belong
to it when the significand is even.  `shortest?` looks at the decimals of one
digit, of two digits and so on up to seventeen: of each length only the two
neighbours of the value can be nearest, so the first length with a neighbour
inside the interval gives the digits, and of two such neighbours the nearer one
wins, the even one on a tie.

`render` lays the digits out: with a point and at least one digit on each side
of it from 1e-5 to below 1e16, else with an exponent that carries its sign.
-/
import AppShell.Decimal.Binary64

namespace AppShell.Decimal

/-- The number `digits · 10 ^ exponent`. -/
structure Digits where
  digits : Nat
  exponent : Int
deriving DecidableEq

namespace Digits

/-- The digits as characters. -/
def spelling (d : Digits) : List Char :=
  Nat.toDigits 10 d.digits

/-- The same number without zeros at the end of its digits; `fuel` bounds their number. -/
def strip : Nat → Digits → Digits
  | 0, d => d
  | fuel + 1, d =>
    if d.digits ≠ 0 ∧ d.digits % 10 = 0 then strip fuel ⟨d.digits / 10, d.exponent + 1⟩ else d

end Digits

namespace Binary64

/-! ### The interval of a double

All values are compared as natural numbers over the common denominator
`denominator`, in units of a quarter of the last place. -/

/-- The power of two that clears the fraction of a quarter of the last place. -/
def quarterScale (x : Binary64) : Nat :=
  1 <<< (2 - x.exponent).toNat

/-- The value of a quarter of the last place in units of `1 / quarterScale`. -/
def quarterUnit (x : Binary64) : Nat :=
  1 <<< (x.exponent - 2).toNat

/-- Whether the gap below the value is half as wide as the gap above it. -/
def narrowBelow (x : Binary64) : Bool :=
  x.significand == 0x10000000000000 && x.exponent != minExponent

/-- The lower end of the interval, in quarters of the last place. -/
def lowerQuarters (x : Binary64) : Nat :=
  4 * x.significand - (if x.narrowBelow then 1 else 2)

/-- The upper end of the interval, in quarters of the last place. -/
def upperQuarters (x : Binary64) : Nat :=
  4 * x.significand + 2

/-- Whether the non-negative quotient `num / den` rounds to the magnitude of `x`. -/
def covers (x : Binary64) (num den : Nat) : Bool :=
  let v := num * x.quarterScale
  let lo := x.lowerQuarters * x.quarterUnit * den
  let hi := x.upperQuarters * x.quarterUnit * den
  if x.significand % 2 = 0 then lo ≤ v && v ≤ hi else lo < v && v < hi

/-- The magnitude as a quotient: numerator and denominator. -/
def quotient (x : Binary64) : Nat × Nat :=
  (x.significand <<< x.exponent.toNat, 1 <<< (-x.exponent).toNat)

/-- The greatest `l` with `10 ^ l ≤ num / den`, searched upwards from a lower bound. -/
def floorLogTen (num den : Nat) : Nat → Int → Int
  | 0, l => l
  | fuel + 1, l =>
    let next := l + 1
    if den * Nat.pow 10 next.toNat ≤ num * Nat.pow 10 (-next).toNat then
      floorLogTen num den fuel next
    else l

/-- The decimal exponent of the leading digit of a positive double. -/
def leadingExponent (x : Binary64) : Int :=
  let (num, den) := x.quotient
  let estimate := (floorLog num den * 30103).fdiv 100000 - 1
  floorLogTen num den 4 estimate

/-- Whether the decimal `d` rounds to the magnitude of `x`. -/
def coversDigits (x : Binary64) (d : Digits) : Bool :=
  x.covers (d.digits * Nat.pow 10 d.exponent.toNat) (Nat.pow 10 (-d.exponent).toNat)

/-- The nearest decimal with `n` digits that rounds to `x`, if there is one. -/
def withDigits? (x : Binary64) (n : Nat) : Option Digits :=
  let (num, den) := x.quotient
  let e := x.leadingExponent - n + 1
  let scaledNum := num * Nat.pow 10 (-e).toNat
  let scaledDen := den * Nat.pow 10 e.toNat
  let below : Digits := ⟨scaledNum / scaledDen, e⟩
  let above : Digits := ⟨scaledNum / scaledDen + 1, e⟩
  match x.coversDigits below, x.coversDigits above with
  | false, false => none
  | true, false => some below
  | false, true => some above
  | true, true => some ⟨divNearest scaledNum scaledDen, e⟩

/-- The shortest decimal that rounds to the magnitude of `x`, zero for zero. -/
def shortest (x : Binary64) : Digits :=
  if x.isZero then ⟨0, 0⟩
  else ((List.range 17).findSome? fun n => x.withDigits? (n + 1)).elim ⟨0, 0⟩ (Digits.strip 17)

/-! ### Layout -/

/-- The exponent of a number in exponent form, with its sign. -/
def exponentText (e : Int) : List Char :=
  'e' :: (if e < 0 then '-' else '+') :: Nat.toDigits 10 e.natAbs

/-- Digits `ds` of which the first stands at the decimal place `lead`. -/
def layout (ds : List Char) (lead : Int) : List Char :=
  if -5 ≤ lead ∧ lead < 0 then
    '0' :: '.' :: (List.replicate (-lead - 1).toNat '0' ++ ds)
  else if 0 ≤ lead ∧ lead < 16 then
    let places := lead.toNat + 1
    if ds.length ≤ places then ds ++ List.replicate (places - ds.length) '0' ++ ['.', '0']
    else ds.take places ++ '.' :: ds.drop places
  else
    match ds with
    | [] => []
    | [d] => d :: exponentText lead
    | d :: more => d :: '.' :: more ++ exponentText lead

/-- The text of a double. -/
def render (x : Binary64) : List Char :=
  let d := x.shortest
  let ds := d.spelling
  let body := layout ds (d.exponent + ds.length - 1)
  if x.negative then '-' :: body else body

end Binary64

end AppShell.Decimal
