/-
AppShell/View/ToolsPanel.lean

The panel of tools at the side; it shows nothing without content.
-/
import AppShell.Markup.Node

namespace AppShell.View

open AppShell.Markup

/-- What a page puts into the panel. -/
structure ToolContent where
  title : String
  body : List Node

/-- The classes of the panel. -/
def panelClass (isOpen : Bool) : String :=
  if isOpen then "tools-panel tools-panel--open" else "tools-panel"

/-- The label of the button that opens and closes the panel. -/
def toggleLabel (isOpen : Bool) : String :=
  if isOpen then "Hide" else "Show"

/-- The panel around its content. -/
def toolsAside (content : ToolContent) (isOpen : Bool) : Node :=
  .classed "aside" (panelClass isOpen)
    (.classed "div" "tools-panel__header"
      [.classed "span" "tools-panel__title" [.text content.title],
       .element "button" [("class", "tools-panel__toggle"), ("title", "Toggle tools")]
        [.text (toggleLabel isOpen)]] ::
      if isOpen then [.classed "div" "tools-panel__body" content.body] else [])

/-- The panel, if there is something to show. -/
def toolsPanel (content : Option ToolContent) (isOpen : Bool) : List Node :=
  content.toList.map fun c => toolsAside c isOpen

end AppShell.View
