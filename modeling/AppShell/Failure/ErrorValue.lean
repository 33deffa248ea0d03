/-
AppShell/Failure/ErrorValue.lean

Error values and the chains of their causes.

Every error value has a text and perhaps a source.  Four kinds have a name of
their own; any other is named by the identifier at the front of its diagnostic
text.  An input/output error that wraps another value shows the text of that
value and passes on its source, so the wrapped value itself is no link of the
chain.
-/
import AppShell.Failure.ApiError
import AppShell.Text.Alphanumeric

namespace AppShell

open AppShell.Text

/-- What an input or output operation met. -/
inductive IoKind where
  | notFound
  | permissionDenied
  | alreadyExists
  | timedOut
  | unexpectedEof
  | invalidData
  | other
deriving DecidableEq

/-- The text of an operation that gives no other. -/
def IoKind.text : IoKind → String
  | .notFound => "entity not found"
  | .permissionDenied => "permission denied"
  | .alreadyExists => "entity already exists"
  | .timedOut => "timed out"
  | .unexpectedEof => "unexpected end of file"
  | .invalidData => "invalid data"
  | .other => "other error"

/-- An error value. -/
inductive ErrorValue where
  | api (error : ApiError)
  | io (kind : IoKind)
  | ioText (kind : IoKind) (text : String)
  | ioWrapped (kind : IoKind) (inner : ErrorValue)
  | json (document : String)
  | formatting
  | integer (digits : String)
  | custom (debug : String) (text : String)
  | caused (debug : String) (text : String) (source : ErrorValue)
deriving DecidableEq

/-! ### Texts -/

/-- Why a text is no integer of sixty-four bits, given what was read of it. -/
def integerFault (negative : Bool) : Nat → List Char → Option String
  | _, [] => none
  | acc, c :: cs =>
    if !c.isDigit then some "invalid digit found in string"
    else
      let next := acc * 10 + (c.toNat - '0'.toNat)
      if negative && 0x8000000000000000 < next then some "number too small to fit in target type"
      else if !negative && 0x8000000000000000 ≤ next then
        some "number too large to fit in target type"
      else integerFault negative next cs

/-- The text of the error of reading an integer. -/
def integerMessage : List Char → Option String
  | [] => some "cannot parse integer from empty string"
  | ['+'] | ['-'] => some "invalid digit found in string"
  | '+' :: cs => integerFault false 0 cs
  | '-' :: cs => integerFault true 0 cs
  | cs => integerFault false 0 cs

/-- The text of the error of reading a document. -/
def documentMessage (cs : List Char) : Option String :=
  match Json.parse cs with
  | .ok _ => none
  | .error f => some (f.message cs)

namespace ErrorValue

/-- The text that the error shows; nothing where a reading would have succeeded. -/
def text : ErrorValue → String
  | .api e => e.message
  | .io kind => kind.text
  | .ioText _ t => t
  | .ioWrapped _ inner => inner.text
  | .json document => (documentMessage document.toList).getD ""
  | .formatting => "an error occurred when formatting an argument"
  | .integer digits => (integerMessage digits.toList).getD ""
  | .custom _ t => t
  | .caused _ t _ => t

/-- The error and its sources, from the outermost to the innermost. -/
def chain : ErrorValue → List ErrorValue
  | .ioWrapped kind inner => .ioWrapped kind inner :: (chain inner).tail
  | .caused debug t source => .caused debug t source :: chain source
  | e => [e]

/-! ### Names -/

/-- The name of an error of a well-known kind. -/
def knownName? : ErrorValue → Option String
  | .api _ => some "ApiError"
  | .io _ | .ioText _ _ | .ioWrapped _ _ => some "io::Error"
  | .json _ => some "serde_json::Error"
  | .formatting => some "fmt::Error"
  | _ => none

/-- The diagnostic text of an error without a known name. -/
def debugText : ErrorValue → String
  | .integer _ => "ParseIntError"
  | .custom debug _ | .caused debug _ _ => debug
  | _ => ""

/-- Whether a character may stand in the name at the front of a diagnostic text. -/
def isNameChar (c : Char) : Bool :=
  isAlphanumeric c || c == '_'

/-- The name at the front of a diagnostic text. -/
def leadingName (debug : String) : String :=
  match debug.toList.takeWhile isNameChar with
  | [] => "Error"
  | cs => String.ofList cs

/-- The name of an error whose type is not known. -/
def name (e : ErrorValue) : String :=
  e.knownName?.getD (leadingName e.debugText)

/-- The name of an error of the given type. -/
def nameAs (typeName : String) (e : ErrorValue) : String :=
  e.knownName?.getD typeName

end ErrorValue

end AppShell
