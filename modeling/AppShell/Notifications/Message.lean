/-
AppShell/Notifications/Message.lean

Messages of the notification bar.

A definition says what a message shows and how it may be dismissed; a
notification is a definition with a name.
-/
import AppShell.Failure.Report

namespace AppShell

/-- The kind of a message. -/
inductive MessageKind where
  | success
  | error
  | warning
  | info
  | inProgress
deriving DecidableEq, Repr

namespace MessageKind

/-- The kinds in order. -/
def all : List MessageKind := [.success, .error, .warning, .info, .inProgress]

/-- The name of a kind. -/
def name : MessageKind → String
  | .success => "success"
  | .error => "error"
  | .warning => "warning"
  | .info => "info"
  | .inProgress => "in-progress"

/-- The kind with the given name; any other name is that of an information. -/
def ofName (name : String) : MessageKind :=
  (all.find? fun k => k.name == name).getD .info

@[simp] theorem ofName_name (k : MessageKind) : ofName k.name = k := by
  cases k <;> decide

end MessageKind

/-- What a message shows. -/
inductive MessageContent where
  | text (content : String)
  | error (report : Report)
deriving DecidableEq

/-- The number of a hook that runs when a message is dismissed. -/
abbrev HookId := Nat

/-- A message without a name. -/
structure MessageDefinition where
  kind : MessageKind
  header : Option String
  content : MessageContent
  dismissible : Bool
  loading : Bool
  onDismiss : Option HookId
deriving DecidableEq

/-- A message with its name. -/
structure Notification where
  id : String
  message : MessageDefinition
deriving DecidableEq

namespace MessageDefinition

/-- A message with a text and nothing else. -/
def ofText (kind : MessageKind) (text : String) : MessageDefinition :=
  ⟨kind, none, .text text, false, false, none⟩

/-- The message that reports a failure; it can be dismissed. -/
def ofFailure (failure : Failure) (lead : Option String) : MessageDefinition :=
  ⟨.error, none, .error (.ofFailure failure lead), true, false, none⟩

end MessageDefinition

end AppShell
