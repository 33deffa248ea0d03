/-
AppShell/Storage/Memory.lean

Mediums that hold texts under keys.

A memory is a map from keys to texts.  Outside a browser the storage of the web
is always empty and forgets what is put into it.
-/
namespace AppShell

/-- Texts under keys, and whether the memory was closed; `label` names it in reports. -/
structure Memory where
  label : String
  items : List (String × String)
  closed : Bool
deriving DecidableEq, Repr

namespace Memory

/-- An open memory without entries. -/
def empty (label : String) : Memory := ⟨label, [], false⟩

instance : Inhabited Memory := ⟨empty ""⟩

/-- The text under a key. -/
def get? (m : Memory) (key : String) : Option String :=
  m.items.lookup key

/-- Takes the entry of a key away. -/
def remove (m : Memory) (key : String) : Memory :=
  { m with items := m.items.filter fun e => e.1 != key }

/-- Puts a text under a key. -/
def set (m : Memory) (key value : String) : Memory :=
  { m with items := (key, value) :: (m.remove key).items }

/-- The number of entries. -/
def size (m : Memory) : Nat := m.items.length

theorem lookup_filter_ne (key other : String) (items : List (String × String)) :
    (items.filter fun e => e.1 != key).lookup other =
      if other = key then none else items.lookup other := by
  induction items with
  | nil => simp
  | cons e items ih =>
    obtain ⟨k, v⟩ := e
    by_cases hk : k = key
    · subst hk
      rw [List.filter_cons_of_neg (by simp), ih, List.lookup_cons]
      by_cases ho : other = k
      · rw [if_pos ho, if_pos ho]
      · rw [if_neg ho, if_neg ho, beq_eq_false_iff_ne.2 ho]
    · rw [List.filter_cons_of_pos (by simp [hk]), List.lookup_cons, List.lookup_cons, ih]
      by_cases ho : other = k
      · subst ho
        simp [hk]
      · rw [beq_eq_false_iff_ne.2 ho]

@[simp] theorem get?_remove (m : Memory) (key other : String) :
    (m.remove key).get? other = if other = key then none else m.get? other :=
  lookup_filter_ne key other m.items

@[simp] theorem get?_set (m : Memory) (key value other : String) :
    (m.set key value).get? other = if other = key then some value else m.get? other := by
  by_cases ho : other = key
  · subst ho
    simp [set, get?]
  · have : (other == key) = false := beq_eq_false_iff_ne.2 ho
    simp [set, get?, List.lookup_cons, this, ho, remove, lookup_filter_ne]

end Memory

/-- The number of a memory. -/
abbrev MemoryId := Nat

/-- What a store writes to. -/
inductive Medium where
  | memory (id : MemoryId)
  | web
deriving DecidableEq, Repr

end AppShell
