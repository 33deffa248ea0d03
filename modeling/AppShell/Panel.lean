/-
AppShell/Panel.lean

The slot of the panel of tools.

Owners of content stack up on a base; the topmost one is visible.  Releasing a
registration takes exactly its entry away.  The panel is open if it was opened
and there is something to show.
-/
import AppShell.Listeners

namespace AppShell

/-- Someone who is told the snapshot after each change. -/
structure PanelListener where
  label : String
  callback : Nat
deriving DecidableEq, Repr

/-- What the panel shows. -/
structure PanelSnapshot where
  content : Option String
  isOpen : Bool
deriving DecidableEq, Repr

/-- A panel: its base, the registered entries from the oldest on, and whether it was opened.  The
count of registrations has no bound here; a word of 64 bits would come back to zero after `2 ^ 64`
of them. -/
structure Panel where
  base : Option String
  stack : List (Nat × Option String)
  issued : Nat
  opened : Bool
  listeners : Listeners PanelListener

namespace Panel

/-- The closed panel without content. -/
def empty : Panel := ⟨none, [], 0, false, .empty⟩

instance : Inhabited Panel := ⟨empty⟩

/-- The visible content. -/
def visible (p : Panel) : Option String :=
  match p.stack.getLast? with
  | some e => e.2
  | none => p.base

/-- The registration of the visible content, none for the base. -/
def visibleOwner (p : Panel) : Option Nat :=
  p.stack.getLast?.map Prod.fst

/-- What the panel shows. -/
def snapshot (p : Panel) : PanelSnapshot :=
  ⟨p.visible, p.opened && p.visible.isSome⟩

/-- Whether the panel is shown as open. -/
def isOpen (p : Panel) : Bool :=
  p.snapshot.isOpen

/-- Puts content on top, and gives the number of its registration. -/
def register (p : Panel) (content : Option String) : Nat × Panel :=
  (p.issued + 1,
    { p with issued := p.issued + 1, stack := p.stack ++ [(p.issued + 1, content)] })

/-- Whether a registration is still there. -/
def registered (p : Panel) (number : Nat) : Bool :=
  p.stack.any fun e => e.1 == number

/-- Takes the entry of a registration away. -/
def release (p : Panel) (number : Nat) : Panel :=
  { p with stack := p.stack.filter fun e => e.1 != number }

/-- Changes the content of an entry, the base for none; nothing if its registration is gone. -/
def setEntry (p : Panel) (owner : Option Nat) (content : Option String) : Option Panel :=
  match owner with
  | none => some { p with base := content }
  | some number =>
    if p.registered number then
      some { p with stack := p.stack.map fun e => if e.1 = number then (e.1, content) else e }
    else none

/-- Opens or closes the panel. -/
def setOpened (p : Panel) (opened : Bool) : Panel :=
  { p with opened := opened }

theorem snapshot_isOpen_imp (p : Panel) (h : p.snapshot.isOpen = true) :
    p.snapshot.content.isSome = true := by
  simp only [snapshot, Bool.and_eq_true] at h
  exact h.2

@[simp] theorem release_release (p : Panel) (number : Nat) :
    (p.release number).release number = p.release number := by
  simp [release, List.filter_filter]

/-- Taking away an entry that is not on top does not change which entry is. -/
theorem getLast?_release (p : Panel) (number : Nat) (h : p.visibleOwner ≠ some number) :
    (p.release number).stack.getLast? = p.stack.getLast? := by
  unfold visibleOwner at h
  obtain hs | ⟨front, e, hs⟩ := List.eq_nil_or_concat p.stack
  · simp [release, hs]
  · have he : e.1 ≠ number := by simpa [hs] using h
    simp [release, hs, List.filter_append, he]

theorem snapshot_release_of_ne (p : Panel) (number : Nat) (h : p.visibleOwner ≠ some number) :
    (p.release number).snapshot = p.snapshot := by
  have hv : (p.release number).visible = p.visible := by
    unfold visible
    rw [getLast?_release p number h]
    rfl
  rw [snapshot, hv]
  rfl

end Panel

end AppShell
