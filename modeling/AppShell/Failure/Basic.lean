/-
AppShell/Failure/Basic.lean

Failures as they are reported.

A failure is an error of the application interface, any other error with the
names and texts along its chain of causes, or a value that is no error.  At
most `levelLimit` levels of a chain are kept.
-/
import AppShell.Failure.ErrorValue
import AppShell.Json.Printer

namespace AppShell

/-- The name and the text of one error. -/
structure ErrorLevel where
  name : String
  message : String
deriving DecidableEq

/-- An error and its causes, from the outermost to the innermost. -/
structure ErrorDetails where
  top : ErrorLevel
  causes : List ErrorLevel
deriving DecidableEq

namespace ErrorDetails

/-- The greatest number of levels that are kept. -/
def levelLimit : Nat := 33

/-- The details of a chain, its outermost error named by `name`. -/
def ofChain (name : ErrorValue → String) (e : ErrorValue) : ErrorDetails where
  top := ⟨name e, e.text⟩
  causes := (e.chain.tail.take (levelLimit - 1)).map fun c => ⟨c.name, c.text⟩

/-- The details of an error whose type is not known. -/
def ofError (e : ErrorValue) : ErrorDetails :=
  ofChain ErrorValue.name e

/-- The details of an error of the given type. -/
def ofTyped (typeName : String) (e : ErrorValue) : ErrorDetails :=
  ofChain (ErrorValue.nameAs typeName) e

/-- An error level as a document around the document of its cause. -/
def levelJson (l : ErrorLevel) (cause : Option Json) : Json :=
  .fields (("name", .str l.name) :: ("message", .str l.message) ::
    cause.toList.map fun c => ("cause", c))

/-- The causes as nested documents. -/
def causesJson : List ErrorLevel → Option Json
  | [] => none
  | l :: ls => some (levelJson l (causesJson ls))

/-- The details as nested documents, each cause within the error that it caused. -/
def toJson (d : ErrorDetails) : Json :=
  levelJson d.top (causesJson d.causes)

end ErrorDetails

/-- A failure. -/
inductive Failure where
  | api (error : ApiError)
  | error (details : ErrorDetails)
  | value (text : String)
deriving DecidableEq

namespace Failure

/-- The failure of an error whose type is not known. -/
def ofError : ErrorValue → Failure
  | .api e => .api e
  | e => .error (.ofError e)

/-- The failure of an error of the given type. -/
def ofTyped (typeName : String) : ErrorValue → Failure
  | .api e => .api e
  | e => .error (.ofTyped typeName e)

/-- The failure of a document. -/
def ofJson (v : Json) : Failure :=
  .value v.pretty

/-- The failure of a text. -/
def ofText (s : String) : Failure :=
  ofJson (.str s)

/-! ### Tables

A table with pairs for keys is no document.  It is shown entry by entry, each
key with one component on a line. -/

/-- A table from pairs of integers to integers in the order of its keys. -/
abbrev PairTable := List ((Int × Int) × Int)

/-- Whether a key stands before another. -/
def keyBefore (a b : Int × Int) : Bool :=
  a.1 < b.1 || a.1 == b.1 && a.2 < b.2

/-- Puts an entry at its place, replacing one with the same key. -/
def insertPair (key : Int × Int) (value : Int) : PairTable → PairTable
  | [] => [(key, value)]
  | (k, v) :: rest =>
    if keyBefore key k then (key, value) :: (k, v) :: rest
    else if key = k then (key, value) :: rest
    else (k, v) :: insertPair key value rest

/-- The lines of one entry. -/
def pairLines (entry : (Int × Int) × Int) : String :=
  "    (\n        " ++ toString entry.1.1 ++ ",\n        " ++ toString entry.1.2 ++
    ",\n    ): " ++ toString entry.2 ++ ",\n"

/-- The text of a table. -/
def tableText (t : PairTable) : String :=
  if t.isEmpty then "\x7b\x7d" else "\x7b\n" ++ String.join (t.map pairLines) ++ "\x7d"

/-- The failure of a table given by its entries, of which the last under a key stays. -/
def ofPairs (entries : List ((Int × Int) × Int)) : Failure :=
  .value (tableText (entries.foldl (fun t e => insertPair e.1 e.2 t) []))

/-! ### Messages -/

/-- The message of a failure, if it has one. -/
def message? : Failure → Option String
  | .api e => some e.message
  | .error d => some d.top.message
  | .value _ => none

end Failure

end AppShell
