/-
AppShell/Json/Fault.lean

What can be wrong with a JSON text, and where.

A fault has a cause and a place.  The place is kept as the number of bytes that
were not yet read, so a reader that works on the rest of a text needs no
counter; `Fault.position` turns it into a line and a column of the whole text.
Lines count from one; a column is the number of bytes of its line read so far.
-/
import AppShell.Decimal.Shortest
import AppShell.Text.Quoted

namespace AppShell.Json

open AppShell.Decimal AppShell.Text

/-- What a value is, as a message names it. -/
inductive Shape where
  | null
  | boolean (value : Bool)
  | integer (value : Int)
  | floating (value : Binary64)
  | text (value : String)
  | list
  | object
deriving DecidableEq

/-- Why a text was refused. -/
inductive Cause where
  | endOfValue
  | endOfList
  | endOfObject
  | endOfString
  | expectedValue
  | expectedWord
  | expectedColon
  | expectedListEnd
  | expectedObjectEnd
  | keyNotString
  | trailingComma
  | trailingCharacters
  | invalidNumber
  | numberOutOfRange
  | invalidEscape
  | unexpectedEscapeEnd
  | loneSurrogate
  | controlCharacter
  | tooDeep
  | duplicateField (name : String)
  | unknownTag (tag : String) (known : List String)
  | wrongShape (found : Shape) (expected : String)
deriving DecidableEq

/-- The words for what a value is. -/
def Shape.describe : Shape → String
  | .null => "null"
  | .boolean b => "boolean `" ++ (if b then "true" else "false") ++ "`"
  | .integer i => "integer `" ++ toString i ++ "`"
  | .floating d => "floating point `" ++ String.ofList d.render ++ "`"
  | .text s => "string " ++ Quoted.quote s
  | .list => "sequence"
  | .object => "map"

/-- A list of alternatives: one, two joined by `or`, or more after `one of`. -/
def alternatives : List String → String
  | [] => "nothing"
  | [a] => "`" ++ a ++ "`"
  | [a, b] => "`" ++ a ++ "` or `" ++ b ++ "`"
  | many => "one of " ++ ", ".intercalate (many.map fun a => "`" ++ a ++ "`")

/-- The message of a cause. -/
def Cause.message : Cause → String
  | .endOfValue => "EOF while parsing a value"
  | .endOfList => "EOF while parsing a list"
  | .endOfObject => "EOF while parsing an object"
  | .endOfString => "EOF while parsing a string"
  | .expectedValue => "expected value"
  | .expectedWord => "expected ident"
  | .expectedColon => "expected `:`"
  | .expectedListEnd => "expected `,` or `]`"
  | .expectedObjectEnd => "expected `,` or `\x7d`"
  | .keyNotString => "key must be a string"
  | .trailingComma => "trailing comma"
  | .trailingCharacters => "trailing characters"
  | .invalidNumber => "invalid number"
  | .numberOutOfRange => "number out of range"
  | .invalidEscape => "invalid escape"
  | .unexpectedEscapeEnd => "unexpected end of hex escape"
  | .loneSurrogate => "lone leading surrogate in hex escape"
  | .controlCharacter => "control character (\\u0000-\\u001F) found while parsing a string"
  | .tooDeep => "recursion limit exceeded"
  | .duplicateField name => "duplicate field `" ++ name ++ "`"
  | .unknownTag tag known => "unknown variant `" ++ tag ++ "`, expected " ++ alternatives known
  | .wrongShape found expected => "invalid type: " ++ found.describe ++ ", expected " ++ expected

/-! ### Places -/

/-- The number of bytes of a character sequence. -/
def byteLength : List Char → Nat
  | [] => 0
  | c :: cs => c.utf8Size + byteLength cs

/-- A fault: its cause and the number of bytes after its place. -/
structure Fault where
  cause : Cause
  remaining : Nat
deriving DecidableEq

/-- A line and a column. -/
structure Position where
  line : Nat
  column : Nat
deriving DecidableEq

namespace Fault

/-- A fault before `rest`. -/
def before (cause : Cause) (rest : List Char) : Fault :=
  ⟨cause, byteLength rest⟩

/-- A fault in the first byte of `rest`, or at its end if it is empty. -/
def inside (cause : Cause) (rest : List Char) : Fault :=
  ⟨cause, byteLength rest - 1⟩

end Fault

/-- The position after the first `count` bytes of a text. -/
def Position.after (text : List Char) (count : Nat) : Position :=
  let read := (text.flatMap String.utf8EncodeChar).take count
  ⟨1 + read.count 0x0A, (read.reverse.takeWhile (· != 0x0A)).length⟩

/-- The place of a fault in the text that was read. -/
def Fault.position (text : List Char) (f : Fault) : Position :=
  Position.after text (byteLength text - f.remaining)

/-- The message of a fault with its place. -/
def Fault.message (text : List Char) (f : Fault) : String :=
  let p := f.position text
  f.cause.message ++ " at line " ++ toString p.line ++ " column " ++ toString p.column

end AppShell.Json
