/-
AppShell/Preferences/Tiles.lean

The choices that the preferences dialog offers.

There is a group of tiles for each setting and a tile for each choice.
Selecting a tile changes a draft; a value that no tile of the group offers
leaves the draft as it is.
-/
import AppShell.Calendar.Format

namespace AppShell

/-- A choice as it is offered. -/
structure Tile where
  value : String
  label : String
  description : String
deriving DecidableEq, Repr

/-- A setting with tiles. -/
inductive TileGroup where
  | dateFormat
  | colorScheme
  | uiDensity
deriving DecidableEq, Repr

/-- The label of a date format. -/
def DateFormat.label : DateFormat → String
  | .system => "System"
  | .iso => "ISO"

/-- The label of a colour scheme. -/
def ColorScheme.label : ColorScheme → String
  | .system => "System"
  | .light => "Light"
  | .dark => "Dark"

/-- What a colour scheme does. -/
def ColorScheme.description : ColorScheme → String
  | .system => "Use your system default color scheme"
  | .light => "Classic light theme"
  | .dark => "Classic dark theme"

/-- The label of a density. -/
def UiDensity.label : UiDensity → String
  | .comfortable => "Comfortable"
  | .compact => "Compact"

/-- What a density does. -/
def UiDensity.description : UiDensity → String
  | .comfortable => "Standard spacing"
  | .compact => "Reduced spacing"

namespace TileGroup

/-- The groups in the order of the dialog. -/
def all : List TileGroup := [.dateFormat, .colorScheme, .uiDensity]

/-- The name of a group, which is the key of its setting. -/
def name : TileGroup → String
  | .dateFormat => "dateFormat"
  | .colorScheme => "colorScheme"
  | .uiDensity => "uiDensity"

/-- The group with the given name. -/
def ofName? (name : String) : Option TileGroup :=
  all.find? fun g => g.name == name

/-- The heading of a group. -/
def heading : TileGroup → String
  | .dateFormat => "Date and Time Format"
  | .colorScheme => "Color Scheme"
  | .uiDensity => "Density"

/-- The tiles of a group, where `sample` shows an instant in a date format. -/
def tiles (sample : DateFormat → String) : TileGroup → List Tile
  | .dateFormat =>
    (Offered.choices : List DateFormat).map fun f => ⟨Offered.name f, f.label, sample f⟩
  | .colorScheme =>
    (Offered.choices : List ColorScheme).map fun s => ⟨Offered.name s, s.label, s.description⟩
  | .uiDensity =>
    (Offered.choices : List UiDensity).map fun d => ⟨Offered.name d, d.label, d.description⟩

/-- A draft after the tile with the given value was selected. -/
def select (g : TileGroup) (draft : Preferences) (value : String) : Preferences :=
  match g with
  | .dateFormat => { draft with dateFormat := (Offered.ofName? value).getD draft.dateFormat }
  | .colorScheme => { draft with colorScheme := (Offered.ofName? value).getD draft.colorScheme }
  | .uiDensity => { draft with uiDensity := (Offered.ofName? value).getD draft.uiDensity }

/-- The value that is selected in a draft. -/
def selected (g : TileGroup) (draft : Preferences) : String :=
  match g with
  | .dateFormat => Offered.name draft.dateFormat
  | .colorScheme => Offered.name draft.colorScheme
  | .uiDensity => Offered.name draft.uiDensity

end TileGroup

end AppShell
