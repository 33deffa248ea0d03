/-
AppShell/Scenario/Reader.lean

Scenarios that a document describes.
-/
import AppShell.Failure.Reader
import AppShell.Scenario.Step

namespace AppShell.Scenario

open AppShell.Failure (textField textField? natField)

/-- The truth value under a key, if there is one. -/
def boolField? (key : String) (v : Json) : Option Bool :=
  (v.present? key).bind Json.bool?

/-- The truth value under a key, false if there is none. -/
def boolField (key : String) (v : Json) : Bool :=
  (boolField? key v).getD false

/-- The integer under a key, zero if there is none. -/
def intField (key : String) (v : Json) : Int :=
  ((v.present? key).bind Json.int?).getD 0

/-- The items under a key, none if there is no array. -/
def listField (key : String) (v : Json) : List Json :=
  ((v.present? key).bind Json.items?).getD []

/-- The text or null under a key, if the key is there. -/
def nullableField? (key : String) (v : Json) : Option (Option String) :=
  (v.get? key).map Json.text?

/-- The levels of a list of names. -/
def readLevels (vs : List Json) : List ConsentLevel :=
  vs.filterMap ConsentLevel.ofJson?

/-- The choice under a key, if there is one. -/
def choiceField? {α : Type} [Tagged α] (key : String) (v : Json) : Option α :=
  (textField? key v).bind Tagged.ofTag?

/-- The described patch of preferences. -/
def readPatch (v : Json) : PreferencesPatch :=
  ⟨choiceField? "dateFormat" v, choiceField? "colorScheme" v, choiceField? "uiDensity" v⟩

/-- The described hook. -/
def readHook (v : Json) : HookSpec :=
  ⟨(v.get? "tag").getD .null, natField "veto" v⟩

/-- The described message. -/
def readMessage (v : Json) : MessageSpec :=
  ⟨textField "text" v, .ofName (textField "kind" v), textField? "header" v,
    boolField "dismissible" v, boolField "loading" v, (v.present? "on_dismiss").map readHook⟩

/-- The described changes of a message. -/
def readEdit (v : Json) : Edit where
  dismissible := boolField? "dismissible" v
  header := nullableField? "header" v
  headerAppend := textField? "header_append" v
  kind := (textField? "kind" v).map MessageKind.ofName
  loading := boolField? "loading" v
  hook := (v.get? "on_dismiss").map fun h => if h.isNull then none else some (readHook h)
  text := textField? "text" v
  textAppend := textField? "text_append" v

/-- The described grant. -/
def readGrant (v : Json) : GrantSpec :=
  match v.present? "consent" with
  | none => .unchanged
  | some (.str _) => .default
  | some w => .levels (readLevels (w.items?.getD []))

/-- The described change of a content. -/
def readChange (v : Json) : Change :=
  match nullableField? "value" v, textField? "append" v, nullableField? "to" v with
  | some content, _, _ => .value content
  | none, some text, _ => .append text
  | none, none, some content => .to content
  | none, none, none => .same

/-- The described texts under keys. -/
def readItems (v : Json) : List (String × String) :=
  match v.get? "items" with
  | some (.obj ms) => ms.toList.map fun e => (e.1, e.2.text?.getD "")
  | _ => []

/-- The described parameters. -/
def readParameters (v : Json) : Parameters where
  verb := textField "do" v
  target := textField? "on" v
  id := textField? "id" v
  source := (textField? "from" v).orElse fun _ => textField? "target" v
  key := textField "key" v
  level := (v.present? "level").bind ConsentLevel.ofJson?
  levels := readLevels (listField "levels" v)
  text := textField "value" v
  items := readItems v
  medium := textField "medium" v
  ignoreClose := boolField "ignore_close" v
  alwaysGranted := boolField "always_granted" v
  grant := readGrant v
  store := textField? "store" v
  context := textField? "context" v
  controls := textField? "controls" v
  other := textField? "other" v
  expect := textField? "expect" v
  close := boolField "close" v
  prefersLight := boolField? "prefers_light" v
  patch := readPatch ((v.present? "patch").getD .null)
  message := (v.present? "def").map readMessage
  replacement := (v.present? "replace").map readMessage
  edit := readEdit ((v.present? "edit").getD .null)
  messageId := textField "message" v
  failure := Failure.ofDescription ((v.present? "failure").getD .null)
  lead := textField? "prefix" v
  full := boolField "full" v
  content := textField? "content" v
  change := readChange v
  opened := boolField? "value" v
  seconds := intField "secs" v
  nanos := intField "nanos" v

/-- The document of the hook that a step brings with one of its messages or changes. -/
def hookDocument (v : Json) : Json :=
  let inside (key : String) : Option Json := (v.present? key).bind (Json.present? "on_dismiss")
  ((inside "def").orElse fun _ => (inside "replace").orElse fun _ => inside "edit").getD .null

/-- The turns of a described callback, one if it does not tell. -/
def readTurns (v : Json) : Nat :=
  (((v.present? "times").bind Json.int?).getD 1).toNat

/-- The described step; `depth` bounds how deep its actions are nested. -/
def readStep : Nat → Json → Step
  | 0, v => .mk (readParameters v) 0 [] 0 []
  | depth + 1, v =>
    let hook := hookDocument v
    .mk (readParameters v) (readTurns v) ((listField "actions" v).map (readStep depth))
      (readTurns hook) ((listField "actions" hook).map (readStep depth))

/-- The described steps. -/
def readSteps (vs : List Json) : List Step :=
  vs.map (readStep Json.depthLimit)

end AppShell.Scenario
