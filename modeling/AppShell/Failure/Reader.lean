/-
AppShell/Failure/Reader.lean

Failures that a document describes.

The field `type` tells what the failure is made from; where it is an error, the
first of the fields `status`, `io`, `json`, `fmt` and `int` that is present
tells its kind, and an error with none of them brings its own texts.
-/
import AppShell.Failure.Basic

namespace AppShell.Failure

/-- The text under a key, empty if there is none. -/
def textField (key : String) (v : Json) : String :=
  ((v.present? key).bind Json.text?).getD ""

/-- The text under a key, if there is one. -/
def textField? (key : String) (v : Json) : Option String :=
  (v.present? key).bind Json.text?

/-- The natural number under a key, zero if there is none. -/
def natField (key : String) (v : Json) : Nat :=
  (((v.present? key).bind Json.int?).getD 0).toNat

/-- The body of a described response. -/
def readBody (v : Json) : ApiBody :=
  match v.present? "text", v.get? "json" with
  | some (.str s), _ => .text s
  | _, some document => .structured document
  | _, none => .empty

/-- The described error of the application interface. -/
def readApi (v : Json) : ApiError :=
  match textField? "raw" v with
  | some raw => .ofResponse (natField "status" v) (textField? "request_id" v) raw
  | none =>
    ⟨textField "message" v, natField "status" v, textField? "request_id" v,
      ((v.present? "body").map readBody).getD .empty⟩

/-- The kind of an input/output error with the given name. -/
def ioKind : String → IoKind
  | "NotFound" => .notFound
  | "PermissionDenied" => .permissionDenied
  | "AlreadyExists" => .alreadyExists
  | "TimedOut" => .timedOut
  | "UnexpectedEof" => .unexpectedEof
  | "InvalidData" => .invalidData
  | _ => .other

/-- The described error value; `depth` bounds the length of its chain. -/
def readError : Nat → Json → ErrorValue
  | 0, v => .custom (textField "debug" v) (textField "display" v)
  | depth + 1, v =>
    if (v.present? "status").isSome then .api (readApi v)
    else if let some kind := textField? "io" v then
      match textField? "display" v, v.present? "inner" with
      | some t, _ => .ioText (ioKind kind) t
      | none, some inner => .ioWrapped (ioKind kind) (readError depth inner)
      | none, none => .io (ioKind kind)
    else if let some document := textField? "json" v then .json document
    else if (v.present? "fmt").isSome then .formatting
    else if let some digits := textField? "int" v then .integer digits
    else match v.present? "source" with
      | some source =>
        .caused (textField "debug" v) (textField "display" v) (readError depth source)
      | none => .custom (textField "debug" v) (textField "display" v)

/-- The name of the type that carries a described error value. -/
def carrierName (v : Json) : String :=
  if (v.present? "int").isSome then "ParseIntError"
  else match textField "as" v with
    | "wrapped" | "nested" => "Wrapped"
    | "boxed" => "Box"
    | "arc" => "Arc"
    | _ => "DynError"

/-- The levels of described details; `depth` bounds their number. -/
def readLevels : Nat → Json → List ErrorLevel
  | 0, _ => []
  | depth + 1, v =>
    ⟨textField "name" v, textField "message" v⟩ ::
      ((v.present? "cause").map (readLevels depth)).getD []

/-- The entry of a table: three integers, of which the first two are the key. -/
def readPair : Json → (Int × Int) × Int
  | v =>
    match (v.items?.getD []).map fun i => i.int?.getD 0 with
    | a :: b :: c :: _ => ((a, b), c)
    | _ => ((0, 0), 0)

/-- The described failure. -/
def ofDescription (v : Json) : Failure :=
  let error := (v.present? "error").getD .null
  match textField "type" v with
  | "api" => .api (readApi v)
  | "boxed" => .ofError (readError Json.depthLimit error)
  | "typed" => .ofTyped (carrierName error) (readError Json.depthLimit error)
  | "details" =>
    match readLevels Json.depthLimit ((v.present? "details").getD .null) with
    | top :: causes => .error ⟨top, causes⟩
    | [] => .error ⟨⟨"", ""⟩, []⟩
  | "string" => .ofText (textField "value" v)
  | "pairs" => .ofPairs ((((v.get? "pairs").bind Json.items?).getD []).map readPair)
  | _ => .ofJson ((v.get? "value").getD .null)

end AppShell.Failure
