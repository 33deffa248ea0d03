/-
AppShell/Consent.lean

Consent levels and sets of granted levels.

Four levels are ordered from the least to the most invasive.  The strictly
necessary one is granted at all times, whether a set lists it or not; so two
sets grant different levels exactly where they differ on one of the other
three (`mem_transitions_iff`).
-/
import AppShell.Json.Basic

namespace AppShell

/-- A category of stored data, from the least to the most invasive. -/
inductive ConsentLevel where
  | strictlyNecessary
  | functionality
  | performance
  | targeting
deriving DecidableEq, Repr

namespace ConsentLevel

/-- The levels in order. -/
def all : List ConsentLevel :=
  [.strictlyNecessary, .functionality, .performance, .targeting]

/-- The place of a level in the order. -/
def rank : ConsentLevel → Nat
  | .strictlyNecessary => 0
  | .functionality => 1
  | .performance => 2
  | .targeting => 3

/-- The name of a level. -/
def name : ConsentLevel → String
  | .strictlyNecessary => "STRICTLY_NECESSARY"
  | .functionality => "FUNCTIONALITY"
  | .performance => "PERFORMANCE"
  | .targeting => "TARGETING"

/-- The level with the given name. -/
def ofName? (name : String) : Option ConsentLevel :=
  all.find? fun l => l.name == name

/-- The level that a JSON value stands for: its name, or an object that maps its name to null. -/
def ofJson? : Json → Option ConsentLevel
  | .str s => ofName? s
  | .obj (.cons key .null .nil) => ofName? key
  | _ => none

/-- The levels of a list in order, with repeats. -/
def sort (levels : List ConsentLevel) : List ConsentLevel :=
  levels.mergeSort fun a b => a.rank ≤ b.rank

/-- The most invasive level of a list. -/
def max? (levels : List ConsentLevel) : Option ConsentLevel :=
  (sort levels).getLast?

theorem mem_all (l : ConsentLevel) : l ∈ all := by
  cases l <;> decide

@[simp] theorem ofName?_name (l : ConsentLevel) : ofName? l.name = some l := by
  cases l <;> decide

end ConsentLevel

/-- A set of granted levels. -/
structure ConsentSet where
  strictlyNecessary : Bool
  functionality : Bool
  performance : Bool
  targeting : Bool
deriving DecidableEq, Repr

namespace ConsentSet

/-- The set that lists no level. -/
def empty : ConsentSet := ⟨false, false, false, false⟩

instance : Inhabited ConsentSet := ⟨empty⟩

/-- Whether the set lists a level. -/
def contains (s : ConsentSet) : ConsentLevel → Bool
  | .strictlyNecessary => s.strictlyNecessary
  | .functionality => s.functionality
  | .performance => s.performance
  | .targeting => s.targeting

/-- The set of the levels of a list. -/
def ofList (levels : List ConsentLevel) : ConsentSet :=
  ⟨levels.contains .strictlyNecessary, levels.contains .functionality,
    levels.contains .performance, levels.contains .targeting⟩

/-- The listed levels in order, each once. -/
def toList (s : ConsentSet) : List ConsentLevel :=
  ConsentLevel.all.filter s.contains

/-- Whether a level is granted. -/
def allows (s : ConsentSet) (level : ConsentLevel) : Bool :=
  level == .strictlyNecessary || s.contains level

/-- The levels whose grant differs between two sets, in order. -/
def transitions (s t : ConsentSet) : List ConsentLevel :=
  ConsentLevel.all.filter fun l => l != .strictlyNecessary && s.contains l != t.contains l

/-- The levels that an application grants once its durable store is in place. -/
def default : ConsentSet := ofList [.strictlyNecessary, .functionality]

@[simp] theorem contains_ofList (levels : List ConsentLevel) (l : ConsentLevel) :
    (ofList levels).contains l = levels.contains l := by
  cases l <;> rfl

theorem mem_toList_iff {s : ConsentSet} {l : ConsentLevel} :
    l ∈ s.toList ↔ s.contains l = true := by
  simp [toList, ConsentLevel.mem_all]

theorem mem_transitions_iff {s t : ConsentSet} {l : ConsentLevel} :
    l ∈ s.transitions t ↔ s.allows l ≠ t.allows l := by
  cases l with
  | strictlyNecessary => simp [transitions, allows, ConsentLevel.all]
  | _ =>
    simp [transitions, allows, ConsentLevel.all, contains]
    exact Iff.rfl

end ConsentSet

end AppShell
