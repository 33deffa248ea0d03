/-
AppShell/Host/Asset.lean

Files of assets.

The address of an asset is what follows the slash behind the folder of assets.
It is decoded and divided at its slashes.  Empty names and single dots do not
move; an address that steps up, or that starts at the root once it is decoded,
names no file.  Any other names a file below the folder of assets of the site.
No asset exists, yet a path that holds a NUL or is too long is not even looked
for.
-/
import AppShell.Text.Percent
import AppShell.Text.Pieces

namespace AppShell.Host.Asset

open AppShell.Text

/-- The folder of the site where none is configured. -/
def defaultSiteRoot : String := "target/site"

/-- The name of the folder of assets. -/
def folder : String := "pkg"

/-- The number of bytes that a path must stay below. -/
def pathLimit : Nat := 4096

/-- A path with one more name. -/
def join (path name : List Char) : List Char :=
  if path.getLast?.all (· == '/') then path ++ name else path ++ '/' :: name

/-- The names in a decoded address, none if it leaves the folder that it starts from. -/
def names? (address : List Char) : Option (List (List Char)) :=
  let names := (pieces '/' address).filter fun name => name ≠ [] ∧ name ≠ ['.']
  if address.head? = some '/' ∨ ['.', '.'] ∈ names then none else some names

/-- The path of the file that an address names, if it names one. -/
def path? (siteRoot : Option String) (address : List Char) : Option (List Char) := do
  let decoded ← Percent.decode? (String.ofList (address.dropWhile (· == '/')))
  let names ← names? decoded.toList
  return names.foldl join (join (siteRoot.getD defaultSiteRoot).toList folder.toList)

/-- Whether a path can be looked for. -/
def isPath (path : List Char) : Bool :=
  path.all (· != '\x00') && (String.ofList path).utf8ByteSize < pathLimit

end AppShell.Host.Asset
