/-
AppShell/Json/Reader.lean

Values of a JSON text.

The grammar is the strict one: no comma before a closing bracket, no comments,
and only four characters are blanks.  Arrays and objects may be nested up to
`depthLimit` deep.  A reader takes the characters that are left and answers a
value with those that follow it, or the first fault; the readers of the entries
of an array or object take the reader of one entry as an argument, so that the
depth alone drives the recursion.
-/
import AppShell.Json.Number
import AppShell.Json.Text

namespace AppShell.Json

/-- Reads a value off the front of a text. -/
abbrev Reader (α : Type) := List Char → Except Fault (α × List Char)

/-- Whether a character may stand between two tokens. -/
def isSpace (c : Char) : Bool :=
  c == ' ' || c == '\t' || c == '\n' || c == '\r'

/-- A text without the blanks at its front. -/
def skipSpace (cs : List Char) : List Char :=
  cs.dropWhile isSpace

/-- The greatest depth of nested arrays and objects. -/
def depthLimit : Nat := 127

/-- What follows the given word. -/
def expectWord : List Char → List Char → Except Fault (List Char)
  | [], rest => .ok rest
  | _ :: _, [] => .error (.before .endOfValue [])
  | w :: ws, c :: rest =>
    if c = w then expectWord ws rest else .error (.inside .expectedWord (c :: rest))

/-- What follows the colon of a member. -/
def expectColon (cs : List Char) : Except Fault (List Char) :=
  match skipSpace cs with
  | [] => .error (.before .endOfObject [])
  | ':' :: rest => .ok rest
  | rest => .error (.inside .expectedColon rest)

/-! ### Entries of arrays and objects -/

/-- The items of an array up to its end; `fuel` bounds their number. -/
def readItems (item : Reader Json) : Nat → Bool → Reader Items
  | 0, _, cs => .error (.before .endOfList cs)
  | fuel + 1, first, cs =>
    let entry (cs : List Char) : Except Fault (Items × List Char) :=
      match item cs with
      | .error f => .error f
      | .ok (v, rest) =>
        match readItems item fuel false rest with
        | .error f => .error f
        | .ok (vs, rest) => .ok (.cons v vs, rest)
    match skipSpace cs with
    | [] => .error (.before .endOfList [])
    | ']' :: rest => .ok (.nil, rest)
    | c :: rest =>
      if first then entry (c :: rest)
      else if c ≠ ',' then .error (.inside .expectedListEnd (c :: rest))
      else match skipSpace rest with
        | [] => .error (.before .endOfValue [])
        | ']' :: rest => .error (.inside .trailingComma (']' :: rest))
        | rest => entry rest

/-- The members of an object up to its end, in their order; `fuel` bounds their number. -/
def readMembers (item : Reader Json) : Nat → Bool → Reader (List (String × Json))
  | 0, _, cs => .error (.before .endOfObject cs)
  | fuel + 1, first, cs =>
    let entry (cs : List Char) : Except Fault (List (String × Json) × List Char) := do
      let (key, rest) ← readText cs
      let rest ← expectColon rest
      let (v, rest) ← item rest
      let (vs, rest) ← readMembers item fuel false rest
      return ((key, v) :: vs, rest)
    match skipSpace cs with
    | [] => .error (.before .endOfObject [])
    | '}' :: rest => .ok ([], rest)
    | c :: rest =>
      if first then
        if c = '"' then entry rest else .error (.inside .keyNotString (c :: rest))
      else if c ≠ ',' then .error (.inside .expectedObjectEnd (c :: rest))
      else match skipSpace rest with
        | [] => .error (.before .endOfValue [])
        | '"' :: rest => entry rest
        | '}' :: rest => .error (.inside .trailingComma ('}' :: rest))
        | rest => .error (.inside .keyNotString rest)

/-! ### Values -/

/-- A value whose arrays and objects have entries read by `nested`, or are refused without it. -/
def readWith (nested : Option (Reader Json)) (cs : List Char) : Except Fault (Json × List Char) :=
  match skipSpace cs with
  | [] => .error (.before .endOfValue [])
  | c :: rest =>
    match c with
    | 'n' => (expectWord ['u', 'l', 'l'] rest).map fun rest => (.null, rest)
    | 't' => (expectWord ['r', 'u', 'e'] rest).map fun rest => (.bool true, rest)
    | 'f' => (expectWord ['a', 'l', 's', 'e'] rest).map fun rest => (.bool false, rest)
    | '-' => readNumber true rest
    | '"' => (readText rest).map fun (s, rest) => (.str s, rest)
    | '[' =>
      match nested with
      | none => .error (.inside .tooDeep (c :: rest))
      | some item =>
        (readItems item (rest.length + 1) true rest).map fun (vs, rest) => (.arr vs, rest)
    | '{' =>
      match nested with
      | none => .error (.inside .tooDeep (c :: rest))
      | some item =>
        (readMembers item (rest.length + 1) true rest).map fun (ms, rest) =>
          (.obj (Members.collect ms), rest)
    | _ =>
      if c.isDigit then readNumber false (c :: rest)
      else .error (.inside .expectedValue (c :: rest))

/-- A value that nests at most as deep as the given depth. -/
def readValue : Nat → Reader Json
  | 0 => readWith none
  | depth + 1 => readWith (some (readValue depth))

/-- What is left after the last value of a text must be blank. -/
def expectEnd (cs : List Char) : Except Fault Unit :=
  match skipSpace cs with
  | [] => .ok ()
  | rest => .error (.inside .trailingCharacters rest)

/-- The value of a whole text. -/
def parse (cs : List Char) : Except Fault Json := do
  let (v, rest) ← readValue depthLimit cs
  expectEnd rest
  return v

/-- The value of a whole text, if it is one. -/
def parse? (s : String) : Option Json :=
  (parse s.toList).toOption

end AppShell.Json
