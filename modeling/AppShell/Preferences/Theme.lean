/-
AppShell/Preferences/Theme.lean

Attributes of the page that follow from the preferences.
-/
import AppShell.Preferences.Basic

namespace AppShell.EffectivePreferences

/-- The attributes that carry the colours and the density. -/
def attributes (p : EffectivePreferences) : List (String × String) :=
  [("data-theme", p.scheme.name), ("data-density", Offered.name p.preferences.uiDensity)]

end AppShell.EffectivePreferences
