/-
AppShell/View/PreferencesPanel.lean

The dialog in which preferences are chosen.
-/
import AppShell.Markup.Node
import AppShell.Preferences.Tiles

namespace AppShell.View

open AppShell.Markup AppShell.Calendar

/-- A tile of a group; a description that is not known yet is left out. -/
def tileNode (group : TileGroup) (tile : Tile) (described : Bool) : Node :=
  .classed "label" "preferences-modal__tile"
    [.void "input" [("name", group.name), ("type", "radio"), ("value", tile.value)],
     .classed "span" "preferences-modal__label" [.text tile.label],
     .classed "span" "preferences-modal__description"
      (if described then [.text tile.description] else [])]

/-- The tiles of a group under its heading, dates shown at the instant `sample` if it is known. -/
def groupNode (sample : Option Instant) (group : TileGroup) : Node :=
  let sampleText (f : DateFormat) : String := (sample.map f.dateTime).getD ""
  .classed "fieldset" "preferences-modal__group"
    (.plain "legend" [.text group.heading] ::
      (group.tiles sampleText).map fun tile =>
        tileNode group tile (sample.isSome || group != .dateFormat))

/-- The dialog, dates shown at the instant `sample` if it is known. -/
def preferencesPanel (sample : Option Instant) : Node :=
  .classed "div" "preferences-modal__backdrop"
    [.element "div"
        [("aria-label", "Preferences"), ("class", "preferences-modal"), ("role", "dialog")]
      (.classed "h2" "preferences-modal__header" [.text "Preferences"] ::
        TileGroup.all.map (groupNode sample) ++
        [.classed "div" "preferences-modal__footer"
          [.classed "button" "preferences-modal__cancel" [.text "Cancel"],
           .classed "button" "preferences-modal__save" [.text "Save"]]])]

end AppShell.View
