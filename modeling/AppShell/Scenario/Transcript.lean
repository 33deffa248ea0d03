/-
AppShell/Scenario/Transcript.lean

Outcomes and events as documents.
-/
import AppShell.Preferences.Theme
import AppShell.Scenario.Run

namespace AppShell.Scenario.Transcript

/-- A list of texts. -/
def texts (ts : List String) : Json :=
  .list (ts.map Json.str)

/-- A list of levels. -/
def levels (ls : List ConsentLevel) : Json :=
  texts (ls.map ConsentLevel.name)

/-- The body of a response, null if it is empty. -/
def body : ApiBody → Json
  | .empty => .null
  | .text t => .fields [("text", .str t)]
  | .structured v => .fields [("json", v)]

/-- An error of the application interface. -/
def apiError (e : ApiError) : Json :=
  .fields [("status", .int e.status), ("message", .str e.message), ("display", .str e.message),
    ("request_id", .ofText? e.requestId), ("body", body e.body),
    ("structured", .bool e.detail?.isSome), ("detail_present", .bool e.detail?.isSome)]

/-- A level of an error around its cause. -/
def errorLevel (l : ErrorLevel) (cause : Json) : Json :=
  .fields [("name", .str l.name), ("message", .str l.message), ("cause", cause)]

/-- The levels of an error, each cause inside the error that it caused. -/
def errorDetails (d : ErrorDetails) : Json :=
  errorLevel d.top (d.causes.foldr errorLevel .null)

/-- A failure by its kind. -/
def failure : Failure → Json
  | .api e => .fields [("api", apiError e)]
  | .error d => .fields [("error", errorDetails d)]
  | .value t => .fields [("opaque", .str t)]

/-- The details of a report. -/
def reportDetails : ReportDetails → Json
  | .api fields payload =>
    .fields [("api", .fields
      [("fields", .list (fields.map fun f => texts [f.1, f.2])), ("payload", .ofText? payload)])]
  | .code t => .fields [("code", .str t)]

/-- A report. -/
def report (r : Report) : Json :=
  .fields [("summary", .str r.summary), ("details", reportDetails r.details)]

/-- What a message shows. -/
def content : MessageContent → Json
  | .text t => .fields [("text", .str t)]
  | .error r => .fields [("error", report r)]

/-- The members of a message without a name. -/
def messageFields (m : MessageDefinition) : List (String × Json) :=
  [("kind", .str m.kind.name), ("header", .ofText? m.header), ("content", content m.content),
    ("dismissible", .bool m.dismissible), ("loading", .bool m.loading),
    ("on_dismiss", .bool m.onDismiss.isSome)]

/-- A message without a name. -/
def message (m : MessageDefinition) : Json :=
  .fields (messageFields m)

/-- A message with its name. -/
def notification (n : Notification) : Json :=
  .fields (("id", .str n.id) :: messageFields n.message)

/-- Preferences with the colours and the attributes that follow from them. -/
def effective (e : EffectivePreferences) : Json :=
  .fields [("prefs", e.preferences.toJson), ("scheme", .str e.scheme.name),
    ("attributes", .list (e.attributes.map fun a => texts [a.1, a.2]))]

/-- What a panel shows. -/
def snapshot (s : PanelSnapshot) : Json :=
  .fields [("content", .ofText? s.content), ("open", .bool s.isOpen)]

/-- What an operation on a queue gave back. -/
def returned : Returned → Json
  | .nothing => .null
  | .id name => .str name
  | .done success => .bool success

/-- A refusal of the given kind. -/
def refusal (kind message : String) : Json :=
  .fields [("error", .str kind), ("message", .str message)]

/-- The refusal of an instant that does not exist. -/
def noInstant : Json :=
  refusal "bad_input" "no such instant"

/-- An outcome. -/
def outcome : Outcome → Json
  | .nothing => .null
  | .flag b => .bool b
  | .text t => .ofText? t
  | .mediumStatus size closed =>
    .fields [("len", .int size), ("empty", .bool (size == 0)), ("closed", .bool closed)]
  | .levels granted => levels granted
  | .grants granted => .list (granted.map Json.bool)
  | .storeConfig ignoreClose alwaysGranted =>
    .fields [("ignore_close", .bool ignoreClose), ("always_granted", .bool alwaysGranted)]
  | .closed b => .fields [("closed", .bool b)]
  | .active b => .fields [("active", .bool b)]
  | .released b => .fields [("released", .bool b)]
  | .replaced expected => .fields [("previous_is_expected", expected.elim .null Json.bool)]
  | .bound key level => .fields [("key", .str key), ("level", .str level.name)]
  | .preferences p => p.toJson
  | .effective e => e.elim .null effective
  | .messages listed => .list (listed.map notification)
  | .size count => .fields [("len", .int count), ("empty", .bool (count == 0))]
  | .queue r ids => .fields [("returned", returned r), ("ids", texts ids)]
  | .handle id m => .fields [("id", .str id), ("last_pushed", message m)]
  | .panel s => snapshot s
  | .panelState content isOpen s =>
    .fields [("content", .ofText? content), ("is_open", .bool isOpen), ("snapshot", snapshot s)]
  | .controls ids p => .fields [("ids", texts ids), ("panel", snapshot p)]
  | .noObject what => refusal "no_object" what
  | .noInstant => noInstant

/-- An event. -/
def event : Event → Json
  | .mediumGet m key => .fields [("medium", .str m), ("get", .str key)]
  | .mediumSet m key value => .fields [("medium", .str m), ("set", .str key), ("value", .str value)]
  | .mediumRemove m key => .fields [("medium", .str m), ("remove", .str key)]
  | .mediumClose m => .fields [("medium", .str m), ("close", .bool true)]
  | .value sub v => .fields [("sub", .str sub), ("value", .ofText? v)]
  | .preferences sub p => .fields [("sub", .str sub), ("prefs", p.toJson)]
  | .written watcher key => .fields [("watch", .str watcher), ("written", .str key)]
  | .consentChanged watcher ls => .fields [("watch", .str watcher), ("consent", levels ls)]
  | .ids sub listed => .fields [("sub", .str sub), ("messages", texts listed)]
  | .messages sub listed =>
    .fields [("sub", .str sub), ("messages", .list (listed.map notification))]
  | .panel sub s => .fields [("sub", .str sub), ("panel", snapshot s)]
  | .dismissing tag id prevented =>
    .fields [("on_dismiss", tag), ("id", .str id), ("prevented", .bool prevented)]
  | .nested step o => .fields [("nested", .str step), ("result", outcome o)]

/-- A record. -/
def record (r : Record) : Json :=
  .fields [("result", outcome r.outcome), ("events", .list (r.events.map event))]

end AppShell.Scenario.Transcript
