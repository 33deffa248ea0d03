/-
AppShell/Json/Printer.lean

JSON texts of a value.

`compact` writes no blanks.  `pretty` puts each entry on a line of its own, two
spaces deeper than the bracket that holds it; an empty array or object stays on
one line.  Strings escape the quote, the backslash and the characters below
U+0020, five of which have a letter of their own, and nothing else.
-/
import AppShell.Decimal.Shortest
import AppShell.Json.Basic
import AppShell.Text.Hex

namespace AppShell.Json

open AppShell.Decimal AppShell.Text

/-! ### Strings and numbers -/

/-- One character as it stands inside a string. -/
def escapeChar (c : Char) : List Char :=
  match c with
  | '"' => ['\\', '"']
  | '\\' => ['\\', '\\']
  | '\x08' => ['\\', 'b']
  | '\t' => ['\\', 't']
  | '\n' => ['\\', 'n']
  | '\x0c' => ['\\', 'f']
  | '\r' => ['\\', 'r']
  | c =>
    if c.toNat < 0x20 then
      ['\\', 'u', '0', '0', Hex.digit (c.toNat / 16), Hex.digit (c.toNat % 16)]
    else [c]

/-- A text between quotes. -/
def writeString (s : String) : List Char :=
  '"' :: s.toList.flatMap escapeChar ++ ['"']

/-- An integer in base ten. -/
def writeInt (i : Int) : List Char :=
  if i < 0 then '-' :: Nat.toDigits 10 i.natAbs else Nat.toDigits 10 i.natAbs

/-- The text of a value that holds no other values; arrays and objects have none here. -/
def writeScalar : Json → List Char
  | .null => ['n', 'u', 'l', 'l']
  | .bool true => ['t', 'r', 'u', 'e']
  | .bool false => ['f', 'a', 'l', 's', 'e']
  | .int i => writeInt i
  | .double d => d.render
  | .str s => writeString s
  | .arr _ | .obj _ => []

/-! ### The compact text -/

mutual
/-- A value without blanks. -/
def writeCompact : Json → List Char
  | .arr items => '[' :: writeItems items ++ [']']
  | .obj members => '{' :: writeMembers members ++ ['}']
  | v => writeScalar v
/-- Items divided by commas. -/
def writeItems : Items → List Char
  | .nil => []
  | .cons v .nil => writeCompact v
  | .cons v rest => writeCompact v ++ ',' :: writeItems rest
/-- Members divided by commas. -/
def writeMembers : Members → List Char
  | .nil => []
  | .cons k v .nil => writeString k ++ ':' :: writeCompact v
  | .cons k v rest => writeString k ++ ':' :: writeCompact v ++ ',' :: writeMembers rest
end

/-- The text of a value without blanks. -/
def compact (v : Json) : String :=
  String.ofList (writeCompact v)

/-! ### The text on several lines -/

/-- The start of a line at the given depth. -/
def newline (depth : Nat) : List Char :=
  '\n' :: List.replicate (2 * depth) ' '

mutual
/-- A value that stands at the given depth. -/
def writePretty (depth : Nat) : Json → List Char
  | .arr .nil => ['[', ']']
  | .obj .nil => ['{', '}']
  | .arr items => '[' :: prettyItems (depth + 1) items ++ newline depth ++ [']']
  | .obj members => '{' :: prettyMembers (depth + 1) members ++ newline depth ++ ['}']
  | v => writeScalar v
/-- Items on lines of their own at the given depth. -/
def prettyItems (depth : Nat) : Items → List Char
  | .nil => []
  | .cons v .nil => newline depth ++ writePretty depth v
  | .cons v rest => newline depth ++ writePretty depth v ++ ',' :: prettyItems depth rest
/-- Members on lines of their own at the given depth. -/
def prettyMembers (depth : Nat) : Members → List Char
  | .nil => []
  | .cons k v .nil => newline depth ++ writeString k ++ ':' :: ' ' :: writePretty depth v
  | .cons k v rest =>
    newline depth ++ writeString k ++ ':' :: ' ' :: writePretty depth v ++
      ',' :: prettyMembers depth rest
end

/-- The text of a value on several lines. -/
def pretty (v : Json) : String :=
  String.ofList (writePretty 0 v)

end AppShell.Json
