/-
AppShell/Listeners.lean

Ordered tables of listeners.

Each listener gets a number that the table has not issued before, by which it
is detached later.  `snapshot` gives the attached listeners in the order in
which they came.
-/
namespace AppShell

/-- Listeners with the numbers they are detached by.  The count of the numbers issued has no bound
here; a word of 64 bits would come back to zero after `2 ^ 64` of them. -/
structure Listeners (α : Type) where
  issued : Nat
  entries : List (Nat × α)
deriving Repr

namespace Listeners

variable {α : Type}

/-- The table without listeners. -/
def empty : Listeners α := ⟨0, []⟩

instance : Inhabited (Listeners α) := ⟨empty⟩

/-- Attaches a listener behind the others and gives its number. -/
def insert (t : Listeners α) (listener : α) : Nat × Listeners α :=
  (t.issued + 1, ⟨t.issued + 1, t.entries ++ [(t.issued + 1, listener)]⟩)

/-- Detaches the listener with the given number, if it is attached. -/
def erase (t : Listeners α) (number : Nat) : Listeners α :=
  { t with entries := t.entries.filter fun e => e.1 != number }

/-- The attached listeners in their order. -/
def snapshot (t : Listeners α) : List α :=
  t.entries.map Prod.snd

@[simp] theorem snapshot_insert (t : Listeners α) (listener : α) :
    (t.insert listener).2.snapshot = t.snapshot ++ [listener] := by
  simp [insert, snapshot]

theorem entries_erase (t : Listeners α) (number : Nat) :
    (t.erase number).entries = t.entries.filter fun e => e.1 != number := rfl

end Listeners

end AppShell
