/-
AppShell/Revision.lean

Revisions of a value.

A value that someone holds is revised by another value in its place, or by a
function of the value that is there.  Whoever holds it asks for the new value
once, with the current one and the state around it at hand; a revision looks at
the current value alone and leaves the state as it is.
-/

namespace AppShell

/-- Another value, or a function of the current one. -/
inductive Revision (β : Type) where
  | value (next : β)
  | function (f : β → β)

namespace Revision

variable {β σ : Type}

/-- The value that a revision makes of the current one. -/
def apply : Revision β → β → β
  | .value next, _ => next
  | .function f, current => f current

/-- The new value, made without a change of the state. -/
def update (r : Revision β) (current : β) (state : σ) : β × σ :=
  (r.apply current, state)

/-- The value that is left of a first one by revisions in their order. -/
def applyAll (first : β) (rs : List (Revision β)) : β :=
  rs.foldl (fun current r => r.apply current) first

@[simp] theorem applyAll_nil (first : β) : applyAll first [] = first := rfl

@[simp] theorem applyAll_concat (first : β) (rs : List (Revision β)) (r : Revision β) :
    applyAll first (rs ++ [r]) = r.apply (applyAll first rs) := by
  simp [applyAll]

end Revision

end AppShell
