/-
AppShell/Host/Cookie.lean

Cookies of requests and responses.

A line of cookies is divided at semicolons.  A part counts if it has a name
before its first equals sign; name and value lose the blanks at their ends and
are decoded.  Of several cookies with one name the last one counts.  A line
that holds anything but printable ASCII and tabs counts for nothing.
-/
import AppShell.Text.Blank
import AppShell.Text.Percent
import AppShell.Text.Pieces

namespace AppShell.Host.Cookie

open AppShell.Text

/-- Whether a character may stand in a line that is read. -/
def isVisible (c : Char) : Bool :=
  c == '\t' || (' ' ≤ c && c ≤ '~')

/-- The name and the value of a part of a line. -/
def parsePart (part : List Char) : Option (String × String) := do
  let name := trimChars (part.takeWhile (· != '='))
  let '=' :: value := part.dropWhile (· != '=') | none
  if name.isEmpty then none
  else
    let name ← Percent.decode? (String.ofList name)
    let value ← Percent.decode? (String.ofList (trimChars value))
    return (name, value)

/-- The cookies of a line. -/
def parseLine (line : String) : List (String × String) :=
  if line.toList.all isVisible then (pieces ';' line.toList).filterMap parsePart else []

/-- The value of the cookie with the given name in the lines of a request. -/
def find? (name : String) (lines : List String) : Option String :=
  (((lines.flatMap parseLine).reverse).find? fun c => c.1 == name).map Prod.snd

/-! ### Setting -/

/-- The printable characters that a value does not show as they are. -/
def escapedChars : List Char :=
  ['"', '#', '<', '>', '?', '\x7b', '\x7d', '/', ':', ';', '=', '@', '[', '\\', ']', '^', '|', '%',
    '(', ')', ',', '`']

/-- Whether a byte of a value is written as an escape. -/
def mustEscape (b : UInt8) : Bool :=
  b ≤ 0x20 || 0x7F ≤ b || escapedChars.contains (Char.ofNat b.toNat)

/-- The name of the cookie that holds the token. -/
def tokenName : String := "token"

/-- The line that stores the token in a browser for a day. -/
def storeToken (token : String) : String :=
  tokenName ++ "=" ++ Percent.encode mustEscape token ++
    "; HttpOnly; SameSite=Strict; Path=/; Max-Age=86400"

/-- The line that takes the token from a browser. -/
def clearToken : String :=
  tokenName ++ "=; Path=/; Max-Age=0"

end AppShell.Host.Cookie
