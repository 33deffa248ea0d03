/-
AppShell/Proofs/Preferences/Drafts.lean

Drafts of the preferences dialog.

A group of tiles looks at one setting of a draft only, and all groups together at
all of them (`Preferences.eq_of_selected`).  Selecting a value that a tile of the
group offers makes it the selected one, and any other value changes nothing
(`TileGroup.selected_select`); so after any selections a group shows the last
value selected in it that one of its tiles offers, whatever was selected in other
groups, even under the same name (`TileGroup.selected_selectAll`).

Every choice has three spellings: the value of its tile, the one by which it is
found again when that tile is selected, and the tag under which it is stored.
They agree (`LawfulOffered`), so what a group shows is what the stored text holds
under the name of the group, and what is read back from it.

The main statement is `draft_of_selections`.
-/
import Mathlib.Data.List.Induction
import AppShell.Preferences.Tiles
import AppShell.Proofs.Preferences.RoundTrip

namespace AppShell

/-! ### Names of choices -/

/-- Choices that are found again by their names, which are the tags under which they are stored. -/
class LawfulOffered (α : Type) [Offered α] [Tagged α] : Prop where
  ofName?_name (a : α) : Offered.ofName? (Offered.name a) = some a
  name_eq_tag (a : α) : Offered.name a = Tagged.tag a

instance : LawfulOffered DateFormat := ⟨by rintro (_ | _) <;> rfl, by rintro (_ | _) <;> rfl⟩

instance : LawfulOffered ColorScheme :=
  ⟨by rintro (_ | _ | _) <;> rfl, by rintro (_ | _ | _) <;> rfl⟩

instance : LawfulOffered UiDensity := ⟨by rintro (_ | _) <;> rfl, by rintro (_ | _) <;> rfl⟩

namespace Offered

variable {α : Type} [Offered α] {n : String} {a b : α}

/-- The names in the order in which they are offered. -/
def names (α : Type) [Offered α] : List String :=
  (choices : List α).map name

/-- A name that is read is the name of what was read. -/
theorem name_of_ofName? (h : ofName? n = some a) : name a = n := by
  have hfound := List.find?_some h
  exact beq_iff_eq.1 hfound

/-- What is not among the names offered is not read. -/
theorem ofName?_eq_none_iff : (ofName? n : Option α) = none ↔ n ∉ names α := by
  simp [ofName?, names]

/-- A name that is offered takes the place of a choice, and any other leaves it. -/
theorem name_getD_ofName? (n : String) (a : α) :
    name ((ofName? n).getD a) = if n ∈ names α then n else name a := by
  rcases h : (ofName? n : Option α) with - | b
  · rw [if_neg (ofName?_eq_none_iff.1 h), Option.getD_none]
  · have hmem : n ∈ names α := by
      by_contra hn
      rw [ofName?_eq_none_iff.2 hn] at h
      cases h
    rw [if_pos hmem, Option.getD_some, name_of_ofName? h]

variable [Tagged α] [LawfulOffered α]

/-- No two values have one name. -/
theorem name_injective (h : name a = name b) : a = b := by
  have hfound := LawfulOffered.ofName?_name a
  rw [h, LawfulOffered.ofName?_name] at hfound
  exact (Option.some.inj hfound).symm

theorem name_mem_names (a : α) : name a ∈ names α := by
  by_contra h
  have hfound := LawfulOffered.ofName?_name a
  rw [ofName?_eq_none_iff.2 h] at hfound
  cases hfound

end Offered

/-! ### One selection -/

namespace TileGroup

variable {g g' : TileGroup} {sample : DateFormat → String} {d : Preferences} {v : String}

/-- The values of the tiles of a group. -/
def offers (sample : DateFormat → String) (g : TileGroup) : List String :=
  (g.tiles sample).map Tile.value

theorem offers_dateFormat : dateFormat.offers sample = Offered.names DateFormat := by
  rw [offers, tiles, List.map_map]
  rfl

theorem offers_colorScheme : colorScheme.offers sample = Offered.names ColorScheme := by
  rw [offers, tiles, List.map_map]
  rfl

theorem offers_uiDensity : uiDensity.offers sample = Offered.names UiDensity := by
  rw [offers, tiles, List.map_map]
  rfl

/-- What a group shows after a selection in it. -/
theorem selected_select (sample : DateFormat → String) (g : TileGroup) (d : Preferences)
    (v : String) : g.selected (g.select d v) = if v ∈ g.offers sample then v else g.selected d := by
  cases g with
  | dateFormat => rw [offers_dateFormat]; exact Offered.name_getD_ofName? v d.dateFormat
  | colorScheme => rw [offers_colorScheme]; exact Offered.name_getD_ofName? v d.colorScheme
  | uiDensity => rw [offers_uiDensity]; exact Offered.name_getD_ofName? v d.uiDensity

/-- A selection is not seen by the other groups. -/
theorem selected_select_of_ne (h : g ≠ g') : g.selected (g'.select d v) = g.selected d := by
  cases g <;> cases g' <;> simp [selected, select] at h ⊢

/-- What a draft selects in a group is one of the tiles offered there. -/
theorem selected_mem_offers (sample : DateFormat → String) (g : TileGroup) (d : Preferences) :
    g.selected d ∈ g.offers sample := by
  cases g with
  | dateFormat => rw [offers_dateFormat]; exact Offered.name_mem_names d.dateFormat
  | colorScheme => rw [offers_colorScheme]; exact Offered.name_mem_names d.colorScheme
  | uiDensity => rw [offers_uiDensity]; exact Offered.name_mem_names d.uiDensity

/-- What a group shows is what is stored under its name. -/
theorem get?_name (g : TileGroup) (d : Preferences) :
    d.toPatch.toJson.get? g.name = some (.str (g.selected d)) := by
  cases g with
  | dateFormat => rw [selected, LawfulOffered.name_eq_tag]; rfl
  | colorScheme => rw [selected, LawfulOffered.name_eq_tag]; rfl
  | uiDensity => rw [selected, LawfulOffered.name_eq_tag]; rfl

end TileGroup

/-- The groups together show every setting. -/
theorem Preferences.eq_of_selected {d d' : Preferences}
    (h : ∀ g : TileGroup, g.selected d = g.selected d') : d = d' := by
  obtain ⟨format, scheme, density⟩ := d
  obtain ⟨format', scheme', density'⟩ := d'
  obtain rfl : format = format' := Offered.name_injective (h .dateFormat)
  obtain rfl : scheme = scheme' := Offered.name_injective (h .colorScheme)
  obtain rfl : density = density' := Offered.name_injective (h .uiDensity)
  rfl

/-! ### Many selections -/

namespace TileGroup

/-- A draft after selections, each a group and a value. -/
def selectAll (start : Preferences) (picks : List (TileGroup × String)) : Preferences :=
  picks.foldl (fun draft pick => pick.1.select draft pick.2) start

/-- The value that was selected last in a group, of those that its tiles offer. -/
def lastOffered (sample : DateFormat → String) (g : TileGroup)
    (picks : List (TileGroup × String)) : Option String :=
  (picks.filter fun pick => pick.1 = g ∧ pick.2 ∈ g.offers sample).getLast?.map Prod.snd

variable {sample : DateFormat → String} {g group : TileGroup} {v : String}
  {picks : List (TileGroup × String)}

/-- Selections are made one after the other. -/
theorem selectAll_concat (start : Preferences) :
    selectAll start (picks ++ [(group, v)]) = group.select (selectAll start picks) v := by
  rw [selectAll, List.foldl_append, List.foldl_cons, List.foldl_nil, selectAll]

/-- A tile that is offered and selected last is the last one offered. -/
theorem lastOffered_concat_of_mem (h : v ∈ g.offers sample) :
    g.lastOffered sample (picks ++ [(g, v)]) = some v := by
  rw [lastOffered, List.filter_append, List.filter_cons_of_pos (by simpa using h), List.filter_nil,
    List.getLast?_concat, Option.map_some]

/-- A selection in another group, or of what is not offered, leaves the group as it was. -/
theorem lastOffered_concat_of_not (h : ¬ (group = g ∧ v ∈ g.offers sample)) :
    g.lastOffered sample (picks ++ [(group, v)]) = g.lastOffered sample picks := by
  rw [lastOffered, List.filter_append, List.filter_cons_of_neg (by simpa using h), List.filter_nil,
    List.append_nil, lastOffered]

/-- What a group shows after any selections, by induction from the last one. -/
theorem selected_selectAll (sample : DateFormat → String) (g : TileGroup) (start : Preferences)
    (picks : List (TileGroup × String)) :
    g.selected (selectAll start picks) = (g.lastOffered sample picks).getD (g.selected start) := by
  induction picks using List.reverseRecOn with
  | nil => rfl
  | append_singleton picks pick ih =>
    obtain ⟨group, v⟩ := pick
    rw [selectAll_concat]
    by_cases hgroup : group = g
    · subst hgroup
      rw [selected_select sample]
      by_cases hv : v ∈ group.offers sample
      · rw [if_pos hv, lastOffered_concat_of_mem hv, Option.getD_some]
      · rw [if_neg hv, lastOffered_concat_of_not (fun h => hv h.2), ih]
    · rw [selected_select_of_ne (Ne.symm hgroup), lastOffered_concat_of_not (fun h => hgroup h.1),
        ih]

/-- Selections in different groups may change places. -/
theorem select_comm {g g' : TileGroup} (h : g ≠ g') (d : Preferences) (v v' : String) :
    g.select (g'.select d v') v = g'.select (g.select d v) v' := by
  refine Preferences.eq_of_selected fun shown => ?_
  by_cases hg : shown = g
  · subst hg
    rw [selected_select (fun _ => ""), selected_select_of_ne h, selected_select_of_ne h,
      selected_select (fun _ => "")]
  · rw [selected_select_of_ne hg]
    by_cases hg' : shown = g'
    · subst hg'
      rw [selected_select (fun _ => ""), selected_select (fun _ => ""), selected_select_of_ne hg]
    · rw [selected_select_of_ne hg', selected_select_of_ne hg', selected_select_of_ne hg]

example : selectAll .default [(.colorScheme, "light"), (.uiDensity, "light"), (.dateFormat, "iso"),
    (.colorScheme, "system"), (.dateFormat, "roman")] = ⟨.iso, .system, .comfortable⟩ := by
  decide

end TileGroup

/-- After any selections a group shows the last value selected in it that one of its tiles offers,
or else what it showed at the start; this determines the draft.  What it shows is offered by one of
its tiles, is stored under its name, and is what is read back; selections in different groups may
change places. -/
theorem draft_of_selections (sample : DateFormat → String) (start : Preferences)
    (picks : List (TileGroup × String)) :
    let draft := TileGroup.selectAll start picks
    (∀ g : TileGroup,
      g.selected draft = (g.lastOffered sample picks).getD (g.selected start) ∧
      g.selected draft ∈ (g.tiles sample).map Tile.value ∧
      draft.toPatch.toJson.get? g.name = some (.str (g.selected draft))) ∧
    (∀ other : Preferences, (∀ g : TileGroup, g.selected other = g.selected draft) →
      other = draft) ∧
    Preferences.decode draft.toPatch.toJson.compact = .ok draft ∧
    ∀ (g g' : TileGroup) (v v' : String), g ≠ g' →
      g.select (g'.select draft v') v = g'.select (g.select draft v) v' :=
  ⟨fun g => ⟨TileGroup.selected_selectAll sample g start picks,
      TileGroup.selected_mem_offers sample g _, TileGroup.get?_name g _⟩,
    fun _ h => Preferences.eq_of_selected h, Preferences.decode_encode _,
    fun _ _ v v' h => TileGroup.select_comm h _ v v'⟩

end AppShell
