/-
AppShell/Host/Token.lean

Launch tokens: thirty-two random bytes in hexadecimal.
-/
import AppShell.Text.Hex

namespace AppShell.Host.Token

/-- The number of random bytes of a token. -/
def byteCount : Nat := 32

/-- The token of the given random bytes. -/
def ofBytes (bytes : List UInt8) : String :=
  Text.Hex.encode bytes

/-- Whether a text has the form of a token. -/
def isToken (s : String) : Bool :=
  s.toList.length == 2 * byteCount && s.toList.all Text.Hex.lowerDigits.contains

end AppShell.Host.Token
