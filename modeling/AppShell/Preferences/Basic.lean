/-
AppShell/Preferences/Basic.lean

Display preferences.

Three settings are chosen from closed lists.  Each choice has a tag, under
which it is stored, and a name, under which it is offered and shown.  A patch
holds only the settings that it changes; merging lays it over the full record.
-/
import AppShell.Json.Printer

namespace AppShell

/-- A closed list of choices with different tags, under which they are stored. -/
class Tagged (α : Type) where
  all : List α
  tag : α → String

namespace Tagged

variable {α : Type} [Tagged α]

/-- The choice with the given tag. -/
def ofTag? (t : String) : Option α :=
  (all : List α).find? fun a => tag a == t

/-- The tags in order. -/
def tags (α : Type) [Tagged α] : List String :=
  (all : List α).map tag

end Tagged

/-- Choices in the order in which they are offered, with the names under which they are. -/
class Offered (α : Type) where
  choices : List α
  name : α → String

/-- The choice that is offered under the given name. -/
def Offered.ofName? {α : Type} [Offered α] (n : String) : Option α :=
  (choices : List α).find? fun a => name a == n

/-- How dates and times are shown. -/
inductive DateFormat where
  | system
  | iso
deriving DecidableEq, Repr

/-- The colours that are asked for. -/
inductive ColorScheme where
  | system
  | light
  | dark
deriving DecidableEq, Repr

/-- The colours that are shown. -/
inductive EffectiveScheme where
  | light
  | dark
deriving DecidableEq, Repr

/-- The space between the parts of the interface. -/
inductive UiDensity where
  | comfortable
  | compact
deriving DecidableEq, Repr

instance : Tagged DateFormat where
  all := [.system, .iso]
  tag
    | .system => "system"
    | .iso => "iso"

instance : Tagged ColorScheme where
  all := [.system, .light, .dark]
  tag
    | .system => "system"
    | .light => "light"
    | .dark => "dark"

instance : Tagged UiDensity where
  all := [.comfortable, .compact]
  tag
    | .comfortable => "comfortable"
    | .compact => "compact"

instance : Offered DateFormat where
  choices := [.system, .iso]
  name
    | .system => "system"
    | .iso => "iso"

instance : Offered ColorScheme where
  choices := [.system, .light, .dark]
  name
    | .system => "system"
    | .light => "light"
    | .dark => "dark"

instance : Offered UiDensity where
  choices := [.comfortable, .compact]
  name
    | .comfortable => "comfortable"
    | .compact => "compact"

/-- The name of a scheme. -/
def EffectiveScheme.name : EffectiveScheme → String
  | .light => "light"
  | .dark => "dark"

/-- All settings. -/
structure Preferences where
  dateFormat : DateFormat
  colorScheme : ColorScheme
  uiDensity : UiDensity
deriving DecidableEq, Repr

/-- The settings that a change touches. -/
structure PreferencesPatch where
  dateFormat : Option DateFormat
  colorScheme : Option ColorScheme
  uiDensity : Option UiDensity
deriving DecidableEq, Repr

/-- Settings with the colours they lead to. -/
structure EffectivePreferences where
  preferences : Preferences
  scheme : EffectiveScheme
deriving DecidableEq, Repr

/-- The patch that changes nothing. -/
def PreferencesPatch.empty : PreferencesPatch := ⟨none, none, none⟩

namespace Preferences

/-- The settings of someone who has chosen none. -/
def default : Preferences := ⟨.system, .system, .comfortable⟩

instance : Inhabited Preferences := ⟨default⟩

/-- The settings of a patch over those of a record. -/
def merge (p : Preferences) (patch : PreferencesPatch) : Preferences where
  dateFormat := patch.dateFormat.getD p.dateFormat
  colorScheme := patch.colorScheme.getD p.colorScheme
  uiDensity := patch.uiDensity.getD p.uiDensity

/-- The settings of a patch over the defaults. -/
def ofPatch (patch : PreferencesPatch) : Preferences :=
  default.merge patch

/-- The patch that changes every setting to that of the record. -/
def toPatch (p : Preferences) : PreferencesPatch :=
  ⟨some p.dateFormat, some p.colorScheme, some p.uiDensity⟩

/-- The colours that are shown, dark unless light ones are asked for or preferred by the host. -/
def scheme (p : Preferences) (prefersLight : Option Bool) : EffectiveScheme :=
  match p.colorScheme with
  | .light => .light
  | .dark => .dark
  | .system => if prefersLight = some true then .light else .dark

/-- The settings with the colours that are shown for them. -/
def resolve (p : Preferences) (prefersLight : Option Bool) : EffectivePreferences :=
  ⟨p, p.scheme prefersLight⟩

@[simp] theorem merge_empty (p : Preferences) : p.merge .empty = p := rfl

@[simp] theorem merge_toPatch (p q : Preferences) : p.merge q.toPatch = q := rfl

end Preferences

/-! ### The stored form -/

/-- The stored form of a patch: an object with the settings that are present, in a fixed order. -/
def PreferencesPatch.toJson (p : PreferencesPatch) : Json :=
  .fields ((p.dateFormat.toList.map fun v => ("dateFormat", .str (Tagged.tag v))) ++
    (p.colorScheme.toList.map fun v => ("colorScheme", .str (Tagged.tag v))) ++
    (p.uiDensity.toList.map fun v => ("uiDensity", .str (Tagged.tag v))))

/-- The stored form of a record. -/
def Preferences.toJson (p : Preferences) : Json :=
  p.toPatch.toJson

/-- The stored text of a record. -/
def Preferences.encode (p : Preferences) : String :=
  p.toJson.compact

end AppShell
