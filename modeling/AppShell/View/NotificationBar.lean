/-
AppShell/View/NotificationBar.lean

The bar of notifications, newest first.

Which elements stand in the bar depends on the kind of each message and on
which of its parts are present; the texts stand in text nodes only.
-/
import AppShell.Markup.Node
import AppShell.Notifications.Message

namespace AppShell.View

open AppShell.Markup

/-- The classes of a message of the given kind. -/
def messageClass (kind : MessageKind) : String :=
  "notification notification--" ++ kind.name

/-- A block of preformatted text. -/
def codeBlock (text : String) : Node :=
  .classed "pre" "notification__code" [.text text]

/-- A fact of a report: its name and its value. -/
def fieldNodes (field : String × String) : List Node :=
  [.plain "dt" [.text field.1], .plain "dd" [.text field.2]]

/-- The section of details. -/
def detailNodes : ReportDetails → List Node
  | .api fields payload =>
    .classed "dl" "notification__fields" (fields.flatMap fieldNodes) ::
      payload.toList.map codeBlock
  | .code text => [codeBlock text]

/-- A report: its summary, and its details behind a disclosure. -/
def reportNodes (r : Report) : List Node :=
  [.classed "span" "notification__text" [.text r.summary],
   .classed "details" "notification__details"
    (.plain "summary" [.text "Details"] :: detailNodes r.details)]

/-- What a message shows. -/
def contentNodes : MessageContent → List Node
  | .text content => [.classed "span" "notification__text" [.text content]]
  | .error report => reportNodes report

/-- The sign of a message that is still loading. -/
def spinner : Node :=
  .element "span" [("aria-hidden", "true"), ("class", "notification__spinner")] []

/-- The button that dismisses a message. -/
def dismissButton : Node :=
  .element "button" [("class", "notification__dismiss"), ("title", "Dismiss")] [.text "✕"]

/-- The header of a message. -/
def headerNode (header : String) : Node :=
  .classed "div" "notification__header" [.text header]

/-- One message. -/
def messageNode (m : MessageDefinition) : Node :=
  .classed "div" (messageClass m.kind)
    ((if m.loading then [spinner] else []) ++
      .classed "div" "notification__content"
        (m.header.toList.map headerNode ++ contentNodes m.content) ::
      (if m.dismissible then [dismissButton] else []))

/-- The bar with the given messages. -/
def notificationBar (messages : List MessageDefinition) : Node :=
  .element "div" [("aria-live", "polite"), ("class", "notification-bar"), ("role", "status")]
    (messages.map messageNode)

end AppShell.View
