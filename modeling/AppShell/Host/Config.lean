/-
AppShell/Host/Config.lean

The configuration of the host, read from its environment.

Each variable is read by itself, without the blanks at its ends; a blank one
counts as absent.
-/
import AppShell.Host.Address
import AppShell.Text.Blank

namespace AppShell.Host

open AppShell.Text

/-- The values of the variables that are set. -/
abbrev Environment := String → Option String

/-- What the host is started with. -/
structure Config where
  listenAddress : SocketAddress
  siteRoot : Option String
  openBrowser : Bool
deriving DecidableEq

/-- Why the host cannot be started. -/
inductive ConfigFault where
  | invalidListenAddress (value : String)
deriving DecidableEq

/-- The message of a fault. -/
def ConfigFault.message : ConfigFault → String
  | .invalidListenAddress value =>
    "invalid LISTEN_ADDR '" ++ value ++ "': invalid socket address syntax"

namespace Config

/-- The address that is listened on if none is given. -/
def defaultListenAddress : String := "127.0.0.1:8080"

/-- A value without the blanks at its ends, unless nothing is left of it. -/
def nonBlank (value : Option String) : Option String :=
  (value.map trim).filter fun v => v ≠ ""

/-- An ASCII letter in lower case. -/
def lowerAscii (c : Char) : Char :=
  if 'A' ≤ c ∧ c ≤ 'Z' then Char.ofNat (c.toNat + 32) else c

/-- The truth value that a text spells, if it spells one. -/
def switch? (value : String) : Option Bool :=
  let word := String.ofList ((trimChars value.toList).map lowerAscii)
  if word ∈ ["1", "true", "yes", "on"] then some true
  else if word ∈ ["0", "false", "no", "off"] then some false
  else none

/-- The configuration of an environment. -/
def ofEnvironment (env : Environment) : Except ConfigFault Config :=
  let address := (nonBlank (env "LISTEN_ADDR")).getD defaultListenAddress
  match SocketAddress.parse? address with
  | none => .error (.invalidListenAddress address)
  | some listenAddress =>
    .ok ⟨listenAddress, nonBlank (env "SITE_ROOT"), ((env "OPEN_BROWSER").bind switch?).getD true⟩

end Config

end AppShell.Host
