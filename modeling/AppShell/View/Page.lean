/-
AppShell/View/Page.lean

Pages and the layout around them.
-/
import AppShell.View.NotificationBar
import AppShell.View.ToolsPanel

namespace AppShell.View

open AppShell.Markup

/-- The name of the application. -/
def applicationName : String := "GW2 Addon Manager"

/-- The layout: a header, the notifications, the page and the tools. -/
def rootLayout (children : List Node) (messages : List MessageDefinition)
    (tool : Option ToolContent) (isOpen : Bool) : Node :=
  .classed "div" "root-layout"
    [.classed "header" "root-layout__header"
      [.element "a" [("class", "root-layout__brand"), ("href", "/")] [.text applicationName],
       .element "button" [("class", "root-layout__preferences"), ("title", "Preferences")]
        [.text "Preferences"]],
     notificationBar messages,
     .classed "div" "root-layout__body"
      (.classed "main" "root-layout__main" children :: toolsPanel tool isOpen)]

/-- The start page; when it was opened is not known before it is shown. -/
def homePage : Node :=
  .classed "section" "home-page"
    [.plain "h1" [.text applicationName],
     .classed "p" "home-page__opened" [.text "Opened ", .text ""],
     .classed "div" "home-page__actions"
      [.plain "button" [.text "Check for updates"],
       .plain "button" [.text "Simulate failure"],
       .plain "button" [.text "Show help"]]]

/-- What the start page puts into the panel of tools. -/
def homeHelp : ToolContent where
  title := "Help"
  body := [.plain "p"
    [.text "Use Preferences in the header to change the date format, color scheme and density."]]

/-- The page of a launch link that is no longer valid. -/
def authErrorPage : Node :=
  .classed "section" "auth-error-page"
    [.plain "h1" [.text "Link expired"],
     .plain "p" [.text
      ("This address belongs to an earlier launch. Start " ++ applicationName ++
        " again to open a fresh session.")]]

/-- The start page in its layout. -/
def homeDocument : Node :=
  rootLayout [homePage] [] (some homeHelp) false

/-- The page of an invalid link in its layout. -/
def authErrorDocument : Node :=
  rootLayout [authErrorPage] [] none false

end AppShell.View
