/-
AppShell/Host/Address.lean

Socket addresses.

An address of version 4 has four numbers below 256 without leading zeros; one
of version 6 has eight groups of up to four hexadecimal digits, of which a run
of zeros may be left out once and the last two may be written as an address of
version 4, and an optional scope.  The written form is canonical: lower case,
the first of the longest runs of at least two zero groups left out, and an
address of version 4 inside one of version 6 written as such.
-/
import AppShell.Text.Hex

namespace AppShell.Host

open AppShell.Text

/-- An address of the internet protocol: four octets, or eight groups of sixteen bits. -/
inductive IpAddress where
  | v4 (octets : List Nat)
  | v6 (groups : List Nat)
deriving DecidableEq, Repr

/-- An address with its scope, zero if it has none, and a port. -/
structure SocketAddress where
  ip : IpAddress
  scope : Nat
  port : Nat
deriving DecidableEq, Repr

namespace SocketAddress

/-! ### Reading -/

/-- A value read off the front of a text, if it is there. -/
abbrev Parser (α : Type) := List Char → Option (α × List Char)

/-- What follows the given character. -/
def expectChar (c : Char) : List Char → Option (List Char)
  | d :: cs => if d = c then some cs else none
  | [] => none

/-- The value of a decimal digit. -/
def decimal? (c : Char) : Option Nat :=
  if c.isDigit then some (c.toNat - '0'.toNat) else none

/-- The value of digits in the given base. -/
def digitsValue (base : Nat) (digit? : Char → Option Nat) (ds : List Char) : Nat :=
  ds.foldl (fun acc c => acc * base + (digit? c).getD 0) 0

/-- A decimal number that is at most `limit`. -/
def decimalUpTo (limit : Nat) : Parser Nat := fun cs =>
  let ds := cs.takeWhile Char.isDigit
  let n := digitsValue 10 decimal? ds
  if ds ≠ [] ∧ n ≤ limit then some (n, cs.dropWhile Char.isDigit) else none

/-- An octet: up to three digits, the first of which is zero only if it stands alone. -/
def octet : Parser Nat := fun cs =>
  let ds := cs.takeWhile Char.isDigit
  if ds.length ≤ 3 ∧ (ds.head? ≠ some '0' ∨ ds.length = 1) then decimalUpTo 255 cs else none

/-- Four octets with points between them. -/
def version4 : Parser (List Nat) := fun cs => do
  let (a, cs) ← octet cs
  let cs ← expectChar '.' cs
  let (b, cs) ← octet cs
  let cs ← expectChar '.' cs
  let (c, cs) ← octet cs
  let cs ← expectChar '.' cs
  let (d, cs) ← octet cs
  return ([a, b, c, d], cs)

/-- Whether a character is a hexadecimal digit. -/
def isHexDigit (c : Char) : Bool := (Hex.digitValue? c).isSome

/-- A group: one to four hexadecimal digits. -/
def group : Parser Nat := fun cs =>
  let ds := cs.takeWhile isHexDigit
  if ds ≠ [] ∧ ds.length ≤ 4 then
    some (digitsValue 16 Hex.digitValue? ds, cs.dropWhile isHexDigit)
  else none

/-- A parser behind a colon, unless it is the first. -/
def separated {α : Type} (first : Bool) (p : Parser α) : Parser α := fun cs =>
  if first then p cs else (expectChar ':' cs).bind p

/-- Two groups written as four octets. -/
def embedded : Parser (List Nat) := fun cs =>
  match version4 cs with
  | some ([a, b, c, d], cs) => some ([a * 256 + b, c * 256 + d], cs)
  | _ => none

/-- Up to `left` groups, and whether the last two of them were written as octets. -/
def groups : Nat → Bool → List Char → List Nat × Bool × List Char
  | 0, _, cs => ([], false, cs)
  | left + 1, first, cs =>
    match if left = 0 then none else separated first embedded cs with
    | some (pair, cs) => (pair, true, cs)
    | none =>
      match separated first group cs with
      | some (g, cs) =>
        let (gs, octets, cs) := groups left false cs
        (g :: gs, octets, cs)
      | none => ([], false, cs)

/-- Eight groups, of which a run of zeros may be left out. -/
def version6 : Parser (List Nat) := fun cs =>
  match groups 8 true cs with
  | (gs, octets, cs) =>
    if gs.length = 8 then some (gs, cs)
    else if octets then none
    else do
      let cs ← expectChar ':' cs
      let cs ← expectChar ':' cs
      let (tail, _, cs) := groups (7 - gs.length) true cs
      return (gs ++ List.replicate (8 - gs.length - tail.length) 0 ++ tail, cs)

/-- A scope behind its sign, zero if there is none. -/
def scopeId (cs : List Char) : Nat × List Char :=
  match (expectChar '%' cs).bind (decimalUpTo 0xFFFFFFFF) with
  | some (n, cs) => (n, cs)
  | none => (0, cs)

/-- A port behind its colon. -/
def portNumber : Parser Nat := fun cs =>
  (expectChar ':' cs).bind (decimalUpTo 65535)

/-- A socket address of version 4. -/
def socket4 : Parser SocketAddress := fun cs => do
  let (octets, cs) ← version4 cs
  let (port, cs) ← portNumber cs
  return (⟨.v4 octets, 0, port⟩, cs)

/-- A socket address of version 6. -/
def socket6 : Parser SocketAddress := fun cs => do
  let cs ← expectChar '[' cs
  let (gs, cs) ← version6 cs
  let (scope, cs) := scopeId cs
  let cs ← expectChar ']' cs
  let (port, cs) ← portNumber cs
  return (⟨.v6 gs, scope, port⟩, cs)

/-- The socket address that a whole text is. -/
def parse? (s : String) : Option SocketAddress :=
  match (socket4 s.toList).orElse fun _ => socket6 s.toList with
  | some (a, []) => some a
  | _ => none

/-! ### Writing -/

/-- The zeros at the front of a list of groups. -/
def leadingZeros (gs : List Nat) : Nat := (gs.takeWhile (· == 0)).length

/-- The start and the length of the first of the longest runs of zeros, searched from `start`. -/
def longestZeros : Nat → List Nat → Nat × Nat
  | _, [] => (0, 0)
  | start, g :: gs =>
    let here := leadingZeros (g :: gs)
    let later := longestZeros (start + 1) gs
    if later.2 ≤ here then (start, here) else later

/-- Groups in hexadecimal with colons between them. -/
def groupsText (gs : List Nat) : List Char :=
  List.intercalate [':'] (gs.map Hex.ofNat)

/-- Octets with points between them. -/
def octetsText (octets : List Nat) : List Char :=
  List.intercalate ['.'] (octets.map (Nat.toDigits 10))

/-- Groups of an address of version 6. -/
def version6Text (gs : List Nat) : List Char :=
  match gs with
  | [0, 0, 0, 0, 0, 0xffff, a, b] =>
    ':' :: ':' :: 'f' :: 'f' :: 'f' :: 'f' :: ':' :: octetsText [a / 256, a % 256, b / 256, b % 256]
  | gs =>
    let (start, count) := longestZeros 0 gs
    if 1 < count then
      groupsText (gs.take start) ++ ':' :: ':' :: groupsText (gs.drop (start + count))
    else groupsText gs

/-- The text of an address. -/
def ipText : IpAddress → List Char
  | .v4 octets => octetsText octets
  | .v6 gs => version6Text gs

/-- The text of a socket address. -/
def text (a : SocketAddress) : String :=
  let host := match a.ip with
    | .v4 octets => octetsText octets
    | .v6 gs =>
      let scope := if a.scope = 0 then [] else '%' :: Nat.toDigits 10 a.scope
      '[' :: version6Text gs ++ scope ++ [']']
  String.ofList (host ++ ':' :: Nat.toDigits 10 a.port)

end SocketAddress

end AppShell.Host
