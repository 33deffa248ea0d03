/-
AppShell/Preferences/Decode.lean

Preferences of a stored text.

The text is a JSON object with the three settings, any of which may be null or
absent; members with other keys are passed over, and a setting may not occur
twice.  An array with up to three entries in the order of the settings is read
as well.  A choice is written as its tag, or as an object that maps its tag to
null.  Whatever else the text holds is a fault at the place where it was seen.
-/
import AppShell.Json.Skip
import AppShell.Preferences.Basic

namespace AppShell.Preferences

open AppShell.Json

/-! ### One choice -/

/-- What a text stands for that is not of the wanted kind, as a fault behind it. -/
def shapeFault (expected : String) (cs : List Char) : Fault :=
  let wrong (shape : Shape) (rest : List Char) : Fault := .before (.wrongShape shape expected) rest
  let scalar : Except Fault (Json × List Char) → Fault
    | .error f => f
    | .ok (.null, rest) => wrong .null rest
    | .ok (.bool b, rest) => wrong (.boolean b) rest
    | .ok (.int i, rest) => wrong (.integer i) rest
    | .ok (.double d, rest) => wrong (.floating d) rest
    | .ok (.str s, rest) => wrong (.text s) rest
    | .ok (.arr _, rest) => wrong .list rest
    | .ok (.obj _, rest) => wrong .object rest
  match cs with
  | '[' :: _ => wrong .list cs
  | '{' :: _ => wrong .object cs
  | _ => scalar (readWith none cs)

variable {α : Type} [Tagged α]

/-- The choice with the given tag, or a fault before `rest`. -/
def choose (tag : String) (rest : List Char) : Except Fault α :=
  match Tagged.ofTag? tag with
  | some a => .ok a
  | none => .error (.before (.unknownTag tag (Tagged.tags α)) rest)

/-- The choice that an object names by its only key, read behind the brace; an object without
members lacks a value, and anything else in the place of its key is no key. -/
def readNamed (cs : List Char) : Except Fault (α × List Char) :=
  match skipSpace cs with
  | [] => .error (.before .endOfObject [])
  | '"' :: rest => do
    let (tag, rest) ← readText rest
    let a ← choose tag rest
    let rest ← expectColon rest
    match skipSpace rest with
    | [] => .error (.before .endOfValue [])
    | 'n' :: rest =>
      let rest ← expectWord ['u', 'l', 'l'] rest
      match skipSpace rest with
      | [] => .error (.before .endOfObject [])
      | '}' :: rest => return (a, rest)
      | rest => .error (.before .expectedValue rest)
    | rest => .error (shapeFault "unit" rest)
  | '}' :: rest => .error (.inside .expectedValue ('}' :: rest))
  | rest => .error (.inside .keyNotString rest)

/-- A choice, or none for null. -/
def readChoice (cs : List Char) : Except Fault (Option α × List Char) :=
  match skipSpace cs with
  | [] => .error (.before .endOfValue [])
  | 'n' :: rest => (expectWord ['u', 'l', 'l'] rest).map fun rest => (none, rest)
  | '"' :: rest => do
    let (tag, rest) ← readText rest
    let a ← choose tag rest
    return (some a, rest)
  | '{' :: rest => (readNamed rest).map fun (a, rest) => (some a, rest)
  | rest => .error (.inside .expectedValue rest)

/-! ### Objects -/

/-- The settings of an object that were already seen: null counts as seen. -/
structure Seen where
  dateFormat : Option (Option DateFormat)
  colorScheme : Option (Option ColorScheme)
  uiDensity : Option (Option UiDensity)
deriving DecidableEq

/-- No setting was seen. -/
def Seen.nothing : Seen := ⟨none, none, none⟩

/-- The patch of the settings that were seen. -/
def Seen.patch (s : Seen) : PreferencesPatch :=
  ⟨s.dateFormat.join, s.colorScheme.join, s.uiDensity.join⟩

/-- The fault of a repeated setting; it is seen after the brace that may follow the key. -/
def duplicateFault (name : String) (rest : List Char) : Fault :=
  match skipSpace rest with
  | '}' :: rest => .before (.duplicateField name) rest
  | rest => .before (.duplicateField name) rest

/-- The value of a setting that may be read once; `seen` is what was read before. -/
def readSetting (name : String) (seen : Option (Option α)) (rest : List Char) :
    Except Fault (Option α × List Char) :=
  if seen.isSome then .error (duplicateFault name rest)
  else do
    let rest ← expectColon rest
    readChoice rest

/-- What one member adds to the settings that were seen. -/
def readMember (seen : Seen) (key : String) (rest : List Char) :
    Except Fault (Seen × List Char) :=
  if key = "dateFormat" then
    (readSetting key seen.dateFormat rest).map fun (v, rest) =>
      ({ seen with dateFormat := some v }, rest)
  else if key = "colorScheme" then
    (readSetting key seen.colorScheme rest).map fun (v, rest) =>
      ({ seen with colorScheme := some v }, rest)
  else if key = "uiDensity" then
    (readSetting key seen.uiDensity rest).map fun (v, rest) =>
      ({ seen with uiDensity := some v }, rest)
  else do
    let rest ← expectColon rest
    let rest ← skipValue rest
    return (seen, rest)

/-- The settings of an object, read behind the brace; `fuel` bounds the number of members. -/
def readSettings : Nat → Bool → Seen → List Char → Except Fault (Seen × List Char)
  | 0, _, _, cs => .error (.before .endOfObject cs)
  | fuel + 1, first, seen, cs =>
    let entry (cs : List Char) : Except Fault (Seen × List Char) := do
      let (key, rest) ← readText cs
      let (seen, rest) ← readMember seen key rest
      readSettings fuel false seen rest
    match skipSpace cs with
    | [] => .error (.before .endOfObject [])
    | '}' :: rest => .ok (seen, rest)
    | c :: rest =>
      if first then
        if c = '"' then entry rest else .error (.inside .keyNotString (c :: rest))
      else if c ≠ ',' then .error (.inside .expectedObjectEnd (c :: rest))
      else match skipSpace rest with
        | [] => .error (.before .endOfValue [])
        | '"' :: rest => entry rest
        | '}' :: rest => .error (.inside .trailingComma ('}' :: rest))
        | rest => .error (.inside .keyNotString rest)

/-! ### Arrays -/

/-- The next entry of an array, if there is one. -/
def readEntry (first : Bool) (cs : List Char) : Except Fault (Option α × List Char) :=
  match skipSpace cs with
  | [] => .error (.before .endOfList [])
  | ']' :: rest => .ok (none, ']' :: rest)
  | c :: rest =>
    if first then readChoice (c :: rest)
    else if c ≠ ',' then .error (.inside .expectedListEnd (c :: rest))
    else match skipSpace rest with
      | [] => .error (.before .endOfValue [])
      | ']' :: rest => .error (.inside .trailingComma (']' :: rest))
      | rest => readChoice rest

/-- What follows the end of an array that may hold no more entries. -/
def expectListEnd (cs : List Char) : Except Fault (List Char) :=
  match skipSpace cs with
  | [] => .error (.before .endOfList [])
  | ']' :: rest => .ok rest
  | ',' :: rest =>
    match skipSpace rest with
    | ']' :: rest => .error (.inside .trailingComma (']' :: rest))
    | rest => .error (.inside .trailingCharacters rest)
  | rest => .error (.inside .trailingCharacters rest)

/-- The settings of an array, read behind the bracket. -/
def readList (cs : List Char) : Except Fault (PreferencesPatch × List Char) := do
  let (dateFormat, rest) ← readEntry true cs
  let (colorScheme, rest) ← readEntry false rest
  let (uiDensity, rest) ← readEntry false rest
  let rest ← expectListEnd rest
  return (⟨dateFormat, colorScheme, uiDensity⟩, rest)

/-! ### Whole texts -/

/-- The patch at the front of a text. -/
def readPatch (cs : List Char) : Except Fault (PreferencesPatch × List Char) :=
  match skipSpace cs with
  | [] => .error (.before .endOfValue [])
  | '{' :: rest =>
    (readSettings (rest.length + 1) true .nothing rest).map fun (seen, rest) => (seen.patch, rest)
  | '[' :: rest => readList rest
  | rest => .error (shapeFault "struct PreferencesPatch" rest)

/-- The patch that a whole text holds. -/
def parsePatch (cs : List Char) : Except Fault PreferencesPatch := do
  let (patch, rest) ← readPatch cs
  expectEnd rest
  return patch

/-- The settings that a stored text holds, over the defaults. -/
def decode (raw : String) : Except Fault Preferences :=
  (parsePatch raw.toList).map ofPatch

/-- The message of a text that holds no settings. -/
def decodeMessage (raw : String) (f : Fault) : String :=
  "invalid preferences payload: " ++ f.message raw.toList

/-- The settings that a stored text holds, and the defaults where it is absent or holds none. -/
def decodeOrDefault (raw : Option String) : Preferences :=
  match raw with
  | none => default
  | some raw => (decode raw).toOption.getD default

end AppShell.Preferences
