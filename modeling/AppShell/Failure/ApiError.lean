/-
AppShell/Failure/ApiError.lean

Errors of responses without success.

The body of a response is classified by its content alone: blanks at its ends
do not count, what is left is empty, one JSON document, or text.  A document
that is an object with a text under `message` gives the message of the error.
-/
import AppShell.Json.Reader
import AppShell.Text.Blank

namespace AppShell

open AppShell.Text

/-- The body of a response. -/
inductive ApiBody where
  | empty
  | text (content : String)
  | structured (document : Json)
deriving DecidableEq

/-- A response without success. -/
structure ApiError where
  message : String
  status : Nat
  requestId : Option String
  body : ApiBody
deriving DecidableEq

/-- The body that a text is. -/
def ApiBody.ofText (raw : String) : ApiBody :=
  match trimChars raw.toList with
  | [] => .empty
  | cs =>
    match Json.parse cs with
    | .ok v => .structured v
    | .error _ => .text (String.ofList cs)

/-- The document of a structured body. -/
def ApiBody.document? : ApiBody → Option Json
  | .structured v => some v
  | _ => none

namespace ApiError

/-- The message of a response that brings none. -/
def statusMessage (status : Nat) : String :=
  "request failed: " ++ toString status

/-- The message that a body brings. -/
def bodyMessage? (body : ApiBody) : Option String := do
  let v ← body.document?
  let message ← v.get? "message"
  message.text?

/-- The error of a response with the given body text. -/
def ofResponse (status : Nat) (requestId : Option String) (raw : String) : ApiError :=
  let body := ApiBody.ofText raw
  ⟨(bodyMessage? body).getD (statusMessage status), status, requestId, body⟩

/-- The document that the response brought. -/
def detail? (e : ApiError) : Option Json :=
  e.body.document?

end ApiError

end AppShell
