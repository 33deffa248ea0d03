/-
AppShell/Proofs/Panels/History.lean

Histories of a panel.

A history lists the changes of one panel, the newest first.  Entries are counted
from zero on in the order in which they were registered.  The rest reads off the
history alone:

* `live`: the entries that were not released since they were registered, in
  their order, and `owner`, the latest of them;
* `sets`: the revisions that were made while an entry was the visible one, and
  `content`, what they leave of its initial content;
* `opened`: what the revisions of the flag leave of it;
* `panel`: the panel that the changes lead to.

Each operation on a panel is a change of the history: registering, releasing, and
revising the visible entry or the flag take the panel of a history to that of
the longer one (`panel_register`, `panel_release`, `panel_set`,
`panel_setOpened`).
-/
import AppShell.Panel
import AppShell.Revision

namespace AppShell

/-- A change of a panel. -/
inductive PanelMark where
  | register (content : Option String)
  | release (n : Nat)
  | set (revision : Revision (Option String))
  | setOpened (revision : Revision Bool)

/-- The changes of a panel, the newest first. -/
abbrev PanelHistory := List PanelMark

namespace PanelHistory

/-- The number of entries registered. -/
def registrations : PanelHistory → Nat
  | [] => 0
  | .register _ :: past => registrations past + 1
  | _ :: past => registrations past

/-- The entries that are still live, in the order in which they were registered. -/
def live : PanelHistory → List Nat
  | [] => []
  | .register _ :: past => live past ++ [registrations past]
  | .release n :: past => (live past).filter (· != n)
  | _ :: past => live past

/-- The live entry that was registered last; none stands for the base. -/
def owner (past : PanelHistory) : Option Nat :=
  past.live.getLast?

/-- The content that an entry started with; the base starts with none. -/
def initial : PanelHistory → Option Nat → Option String
  | [], _ => none
  | .register content :: past, e =>
    if e = some (registrations past) then content else initial past e
  | _ :: past, e => initial past e

/-- The revisions that were made while an entry was the visible one, in their order. -/
def sets : PanelHistory → Option Nat → List (Revision (Option String))
  | [], _ => []
  | .set revision :: past, e => if owner past = e then sets past e ++ [revision] else sets past e
  | _ :: past, e => sets past e

/-- The current content of an entry. -/
def content (past : PanelHistory) (e : Option Nat) : Option String :=
  Revision.applyAll (past.initial e) (past.sets e)

/-- The revisions of the flag, in their order. -/
def openings : PanelHistory → List (Revision Bool)
  | [] => []
  | .setOpened revision :: past => openings past ++ [revision]
  | _ :: past => openings past

/-- Whether the panel was opened. -/
def opened (past : PanelHistory) : Bool :=
  Revision.applyAll false past.openings

/-- The panel that a history leads to, with nobody who listens. -/
def panel (past : PanelHistory) : Panel where
  base := past.content none
  stack := past.live.map fun n => (n + 1, past.content (some n))
  issued := past.registrations
  opened := past.opened
  listeners := .empty

variable {past : PanelHistory}

/-! ### Live entries -/

/-- A live registration was made. -/
theorem lt_of_mem_live {n : Nat} (h : n ∈ past.live) : n < past.registrations := by
  induction past with
  | nil => cases h
  | cons m past ih =>
    cases m with
    | register content =>
      rcases List.mem_append.1 h with h | h
      · exact Nat.lt_succ_of_lt (ih h)
      · rw [List.mem_singleton.1 h]
        exact Nat.lt_succ_self _
    | release n' => exact ih (List.mem_filter.1 h).1
    | set revision | setOpened revision => exact ih h

/-- The live entries stand in the order in which they were registered. -/
theorem live_increasing (past : PanelHistory) : past.live.Pairwise (· < ·) := by
  induction past with
  | nil => exact List.Pairwise.nil
  | cons m past ih =>
    cases m with
    | register content =>
      refine List.pairwise_append.2 ⟨ih, List.pairwise_singleton _ _, fun a ha b hb => ?_⟩
      rw [List.mem_singleton.1 hb]
      exact lt_of_mem_live ha
    | release n => exact ih.filter _
    | set revision | setOpened revision => exact ih

/-- After a registration the live ones are those before it and the new one. -/
theorem mem_live_register {content : Option String} {n : Nat} :
    n ∈ live (.register content :: past) ↔ n ∈ past.live ∨ n = past.registrations := by
  rw [live, List.mem_append, List.mem_singleton]

/-- After a release the live ones are the others. -/
theorem mem_live_release {n n' : Nat} :
    n ∈ live (.release n' :: past) ↔ n ∈ past.live ∧ n ≠ n' := by
  rw [live, List.mem_filter, bne_iff_ne]

/-- The owner is one of the registrations made. -/
theorem lt_of_owner {n : Nat} (h : past.owner = some n) : n < past.registrations :=
  lt_of_mem_live (List.mem_of_getLast? h)

/-- The owner is the live entry that was registered last. -/
theorem owner_eq_some_iff {n : Nat} :
    past.owner = some n ↔ n ∈ past.live ∧ ∀ m ∈ past.live, m ≤ n := by
  rw [owner]
  rcases List.eq_nil_or_concat past.live with h | ⟨front, last, h⟩
  · simp [h]
  · have hincreasing := past.live_increasing
    rw [h, List.concat_eq_append, List.pairwise_append] at hincreasing
    have hfront : ∀ m ∈ front, m < last := fun m hm => hincreasing.2.2 m hm last (by simp)
    simp only [h, List.concat_eq_append, List.getLast?_concat, Option.some.injEq, List.mem_append,
      List.mem_singleton]
    refine ⟨?_, fun ⟨hn, hmax⟩ => ?_⟩
    · rintro rfl
      exact ⟨.inr rfl, fun m hm => hm.elim (fun hm => Nat.le_of_lt (hfront m hm)) Nat.le_of_eq⟩
    · rcases hn with hn | hn
      · exact absurd (hmax last (.inr rfl)) (Nat.not_le.2 (hfront n hn))
      · exact hn.symm

/-! ### Contents -/

/-- Nothing is set on an entry before it is registered. -/
theorem sets_eq_nil {n : Nat} (hn : past.registrations ≤ n) : past.sets (some n) = [] := by
  induction past with
  | nil => rfl
  | cons m past ih =>
    cases m with
    | register content => exact ih (Nat.le_of_succ_le hn)
    | set revision =>
      have hne : owner past ≠ some n := fun ho => Nat.not_lt.2 hn (lt_of_owner ho)
      rw [sets, if_neg hne]
      exact ih hn
    | release n' | setOpened revision => exact ih hn

/-- A registration has the content it came with, and the others keep theirs. -/
theorem content_register (content : Option String) (e : Option Nat) :
    PanelHistory.content (.register content :: past) e =
      if e = some past.registrations then content else past.content e := by
  show Revision.applyAll (initial (.register content :: past) e) (past.sets e) = _
  rw [initial]
  split
  · next he => rw [he, sets_eq_nil (Nat.le_refl _), Revision.applyAll_nil]
  · rfl

/-- A revision changes the content of the owner only. -/
theorem content_set (revision : Revision (Option String)) (e : Option Nat) :
    PanelHistory.content (.set revision :: past) e =
      if past.owner = e then revision.apply (past.content e) else past.content e := by
  show Revision.applyAll (past.initial e) (sets (.set revision :: past) e) = _
  rw [sets]
  split
  · exact Revision.applyAll_concat _ _ _
  · rfl

/-! ### The panel of a history -/

/-- Entries are numbered from one, and zero stands for the panel itself. -/
theorem visibleOwner_panel (past : PanelHistory) :
    past.panel.visibleOwner = past.owner.map (· + 1) := by
  simp only [Panel.visibleOwner, panel, List.getLast?_map, Option.map_map, owner]
  rfl

/-- What the panel shows is what its owner has. -/
theorem visible_panel (past : PanelHistory) : past.panel.visible = past.content past.owner := by
  rcases h : past.live.getLast? with - | n <;> simp [Panel.visible, panel, owner, h]

/-- The entries of the panel are those of the live registrations. -/
theorem registered_panel (past : PanelHistory) (n : Nat) :
    past.panel.registered (n + 1) = decide (n ∈ past.live) := by
  rw [Bool.eq_iff_iff]
  simp [Panel.registered, panel]

/-- Registering in the panel of a history gives the panel of the longer history. -/
theorem panel_register (past : PanelHistory) (content : Option String) :
    panel (.register content :: past) = (past.panel.register content).2 := by
  have hstack : (past.live.map fun n =>
      (n + 1, PanelHistory.content (.register content :: past) (some n)))
        = past.live.map fun n => (n + 1, past.content (some n)) := by
    refine List.map_congr_left fun n hn => ?_
    have hne : some n ≠ some past.registrations :=
      fun he => Nat.lt_irrefl _ (Option.some.inj he ▸ lt_of_mem_live hn)
    rw [content_register, if_neg hne]
  have hnew : PanelHistory.content (.register content :: past) (some past.registrations)
      = content := by
    rw [content_register, if_pos rfl]
  simp only [panel, live, List.map_append, List.map_cons, List.map_nil, hstack, hnew]
  rfl

/-- Releasing in the panel of a history gives the panel of the longer history. -/
theorem panel_release (past : PanelHistory) (n : Nat) :
    panel (.release n :: past) = past.panel.release (n + 1) := by
  have hstack : (past.live.filter (· != n)).map (fun n => (n + 1, past.content (some n)))
      = (past.live.map fun n => (n + 1, past.content (some n))).filter (·.1 != n + 1) := by
    rw [List.filter_map]
    refine congrArg _ (List.filter_congr fun a _ => ?_)
    rw [Bool.eq_iff_iff]
    simp
  exact congrArg (fun stack => { past.panel with stack := stack }) hstack

/-- A revision lands on the entry that the history says is visible. -/
theorem panel_set (past : PanelHistory) (revision : Revision (Option String)) :
    past.panel.setEntry past.panel.visibleOwner (revision.apply past.panel.visible)
      = some (panel (.set revision :: past)) := by
  rw [visibleOwner_panel, visible_panel]
  rcases ho : past.owner with - | n
  · -- nobody is registered: the base changes, and no entry does
    have hstack : (past.live.map fun n =>
        (n + 1, PanelHistory.content (.set revision :: past) (some n)))
          = past.live.map fun n => (n + 1, past.content (some n)) := by
      refine List.map_congr_left fun n _ => ?_
      rw [content_set, if_neg (by rw [ho]; exact nofun)]
    have hbase : PanelHistory.content (.set revision :: past) none
        = revision.apply (past.content none) := by
      rw [content_set, if_pos ho]
    simp only [Option.map_none, Panel.setEntry, panel, live, hstack, hbase]
    rfl
  · -- the owner's entry changes, and neither another entry nor the base does
    have hregistered : past.panel.registered (n + 1) = true := by
      rw [registered_panel]
      exact decide_eq_true (List.mem_of_getLast? ho)
    have hstack : (past.live.map fun n => (n + 1, past.content (some n))).map
        (fun e => if e.1 = n + 1 then (e.1, revision.apply (past.content (some n))) else e)
          = past.live.map fun n =>
            (n + 1, PanelHistory.content (.set revision :: past) (some n)) := by
      rw [List.map_map]
      refine List.map_congr_left fun a _ => ?_
      rw [content_set, ho]
      by_cases ha : a = n
      · subst ha
        simp
      · simp [ha, Ne.symm ha]
    have hbase : PanelHistory.content (.set revision :: past) none = past.content none := by
      rw [content_set, if_neg (by rw [ho]; exact nofun)]
    simp only [Option.map_some, Panel.setEntry, hregistered, if_true]
    refine congrArg some ?_
    simp only [panel, live, hbase, ← hstack]
    rfl

/-- Opening or closing the panel of a history gives the panel of the longer history. -/
theorem panel_setOpened (past : PanelHistory) (revision : Revision Bool) :
    panel (.setOpened revision :: past)
      = past.panel.setOpened (revision.apply past.panel.opened) := by
  have hopened : opened (.setOpened revision :: past) = revision.apply past.opened :=
    Revision.applyAll_concat _ _ _
  simp only [panel, Panel.setOpened, hopened]
  rfl

end PanelHistory

end AppShell
