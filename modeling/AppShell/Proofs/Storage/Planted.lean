/-
AppShell/Proofs/Storage/Planted.lean

Another value in the place of an entry.

`withEntry m key value` is a shell in which one memory holds another value, or
none, under one key, and nothing else differs.  Operations that do not touch
that entry commute with it: they do the same in both shells, record the same,
and leave the planted value where it was.  Operations that look at no memory at
all are listed first; those that change another entry follow
(`putEntry_withEntry`).
-/
import AppShell.Proofs.Storage.Tables

namespace AppShell

namespace Memory

/-- The memory with another value, or none, under a key. -/
def plant (mem : Memory) (key : String) (value : Option String) : Memory :=
  { mem with items := (mem.remove key).items ++ (value.map fun v => (key, v)).toList }

@[simp] theorem label_plant (mem : Memory) (key : String) (value : Option String) :
    (mem.plant key value).label = mem.label := rfl

/-- A memory with a planted entry has that entry, and the others as they were. -/
theorem get?_plant (mem : Memory) (key : String) (value : Option String) (other : String) :
    (mem.plant key value).get? other = if other = key then value else mem.get? other := by
  have happend : ∀ items : List (String × String),
      (items ++ (value.map fun v => (key, v)).toList).lookup other
        = (items.lookup other).or (if other = key then value else none) := by
    intro items
    rw [List.lookup_append]
    congr 1
    by_cases ho : other = key
    · cases value <;> simp [ho]
    · have hother : (other == key) = false := beq_eq_false_iff_ne.2 ho
      cases value <;> simp [List.lookup_cons, ho, hother]
  show ((mem.items.filter fun e => e.1 != key) ++ _).lookup other = _
  rw [happend, lookup_filter_ne]
  by_cases ho : other = key <;> simp [ho, get?]

/-- A planted value is not touched by a change of another key. -/
theorem plant_set {key other : String} (h : other ≠ key) (mem : Memory) (value : Option String)
    (text : String) : (mem.plant key value).set other text = (mem.set other text).plant key value := by
  cases value <;>
    simp [plant, set, remove, List.filter_append, List.filter_filter, Bool.and_comm, h, Ne.symm h]

/-- Another entry is removed alike before and after the planting. -/
theorem plant_remove {key other : String} (h : other ≠ key) (mem : Memory) (value : Option String) :
    (mem.plant key value).remove other = (mem.remove other).plant key value := by
  cases value <;>
    simp [plant, remove, List.filter_append, List.filter_filter, Bool.and_comm, Ne.symm h]

end Memory

namespace Shell

variable {α : Type}

/-- The shell in which a memory holds another value, or none, under a key. -/
def withEntry (sh : Shell α) (m : MemoryId) (key : String) (value : Option String) : Shell α :=
  { sh with memories := sh.memories.modify m fun mem => mem.plant key value }

variable {m : MemoryId} {key : String} {value : Option String}

/-- The planted entry is the only one that reads differently. -/
theorem entry_withEntry (sh : Shell α) (i : MemoryId) (other : String) :
    (sh.withEntry m key value).entry (.memory i) other =
      if m = i ∧ m < sh.memories.size ∧ other = key then value
      else sh.entry (.memory i) other := by
  show ((sh.memories.modify m _)[i]?.bind fun mem => mem.get? other) = _
  rw [Array.getElem?_modify]
  by_cases hi : m = i
  · subst hi
    by_cases hm : m < sh.memories.size
    · rw [entry, Array.getElem?_eq_getElem hm]
      simp [hm, Memory.get?_plant]
    · rw [entry, Array.getElem?_eq_none (Nat.le_of_not_lt hm)]
      simp [hm]
  · simp [hi, entry]

/-! ### Changes in two places of a table -/

/-- Changes at two places may be made in either order, and at one place when they commute there. -/
theorem modify_comm {β : Type} (xs : Array β) (i j : Nat) {f g : β → β}
    (h : i = j → ∀ x, f (g x) = g (f x)) :
    (xs.modify i f).modify j g = (xs.modify j g).modify i f := by
  apply Array.ext_getElem?
  intro k
  simp only [Array.getElem?_modify]
  by_cases hi : i = k <;> by_cases hj : j = k
  · have hcomm := h (hi.trans hj.symm)
    simp only [hi, hj, if_true, Option.map_map]
    exact congrArg (fun t => Option.map t _) (funext fun x => (hcomm x).symm)
  · simp [hi, hj]
  · simp [hi, hj]
  · simp [hi, hj]

theorem modify_push {β : Type} (xs : Array β) {i : Nat} (hi : i < xs.size) (f : β → β) (x : β) :
    (xs.modify i f).push x = (xs.push x).modify i f := by
  apply Array.ext_getElem?
  intro k
  rw [Array.getElem?_push, Array.size_modify, Array.getElem?_modify, Array.getElem?_modify,
    Array.getElem?_push]
  by_cases hk : k = xs.size
  · simp [hk]
    omega
  · simp [hk]

/-! ### Operations that look at no memory -/

/-- Attaching an observer looks at no entry. -/
theorem attachObserver_withEntry (sh : Shell α) (s : StoreId) (o : StoreObserver) :
    (sh.withEntry m key value).attachObserver s o =
      ((sh.attachObserver s o).1, (sh.attachObserver s o).2.withEntry m key value) := by
  unfold attachObserver
  rcases e : sh.stores[s]? with - | st <;> simp only [withEntry, e]

/-- Listening looks at no entry. -/
theorem listen_withEntry (sh : Shell α) (source : StoreSource) (l : KeyListener) :
    ((sh.withEntry m key value).listen source l).2 = (sh.listen source l).2.withEntry m key value := by
  cases source with
  | store s => rcases e : sh.stores[s]? with - | st <;> simp only [listen, withEntry, e] <;> rfl
  | context c => rcases e : sh.contexts[c]? with - | ct <;> simp only [listen, withEntry, e] <;> rfl

/-- Installing a store looks at no entry. -/
theorem install_withEntry (sh : Shell α) (c : ContextId) (ct : StoreContext) (s : StoreId) :
    (sh.withEntry m key value).install c ct s = (sh.install c ct s).withEntry m key value := by
  simp only [install, attachObserver_withEntry]
  rfl

theorem unsubscribe_withEntry (sh : Shell α) (n : SubscriptionId) :
    (sh.withEntry m key value).unsubscribe n = (sh.unsubscribe n).withEntry m key value := by
  rcases e : sh.subscriptions[n]? with - | ⟨table, number, active⟩
  · simp only [unsubscribe, withEntry, e]
  · cases active <;> cases table <;> simp only [unsubscribe, withEntry, e] <;> rfl

/-! ### Operations on memories -/

/-- A look at another entry finds the same. -/
theorem mediumGet_withEntry (sh : Shell α) {medium : Medium} {other : String}
    (h : medium = .memory m → other ≠ key) :
    (sh.withEntry m key value).mediumGet medium other =
      ((sh.mediumGet medium other).1, (sh.mediumGet medium other).2.withEntry m key value) := by
  cases medium with
  | web => rfl
  | memory i =>
    have hget : (sh.withEntry m key value).memories[i]?
        = sh.memories[i]?.map fun mem => if m = i then mem.plant key value else mem := by
      show (sh.memories.modify m _)[i]? = _
      rw [Array.getElem?_modify]
      by_cases hi : m = i <;> simp [hi]
    rcases e : sh.memories[i]? with - | mem
    · simp only [mediumGet, hget, e, Option.map_none]
    · simp only [mediumGet, hget, e, Option.map_some]
      by_cases hi : m = i
      · have hne : other ≠ key := h (by rw [hi])
        simp only [hi, if_true, Memory.get?_plant, hne, if_false, Memory.label_plant]
        rfl
      · simp only [hi, if_false]
        rfl

/-- A change of a memory that commutes with planting is the same in both shells. -/
theorem change_withEntry (sh : Shell α) (i : MemoryId) {f : Memory → Memory}
    (h : m = i → ∀ mem, f (mem.plant key value) = (f mem).plant key value)
    (report : String → Event) :
    (match (sh.withEntry m key value).memories[i]? with
      | none => sh.withEntry m key value
      | some mem =>
        { sh.withEntry m key value with
          memories := (sh.withEntry m key value).memories.modify i f }.note (report mem.label)) =
      Shell.withEntry (match sh.memories[i]? with
        | none => sh
        | some mem =>
          { sh with memories := sh.memories.modify i f }.note (report mem.label)) m key value := by
  have hcomm : (sh.memories.modify m fun mem => mem.plant key value).modify i f
      = (sh.memories.modify i f).modify m fun mem => mem.plant key value :=
    modify_comm sh.memories m i fun hi mem => (h hi mem).symm
  have hlabel : (sh.withEntry m key value).memories[i]?.map Memory.label
      = sh.memories[i]?.map Memory.label := by
    refine map_getElem?_modify sh.memories m ?_ i
    intro mem
    rfl
  rcases e : sh.memories[i]? with - | mem
  · rw [e, Option.map_none, Option.map_eq_none_iff] at hlabel
    simp only [hlabel]
  · rw [e, Option.map_some] at hlabel
    obtain ⟨mem', hmem', hsame⟩ := Option.map_eq_some_iff.1 hlabel
    simp only [hmem', hsame]
    simp only [withEntry, note, hcomm]

/-- A change of another entry is the same in both shells. -/
theorem putEntry_withEntry (sh : Shell α) {medium : Medium} {other : String}
    (h : medium = .memory m → other ≠ key) (v : Option String) :
    (sh.withEntry m key value).putEntry medium other v =
      (sh.putEntry medium other v).withEntry m key value := by
  cases medium with
  | web => cases v <;> rfl
  | memory i =>
    cases v with
    | none =>
      refine change_withEntry sh i ?_ fun label => .mediumRemove label other
      intro hi mem
      exact Memory.plant_remove (h (by rw [hi])) mem value
    | some text =>
      refine change_withEntry sh i ?_ fun label => .mediumSet label other text
      intro hi mem
      exact Memory.plant_set (h (by rw [hi])) mem value text

/-- Closing a medium looks at no entry. -/
theorem mediumClose_withEntry (sh : Shell α) (medium : Medium) :
    (sh.withEntry m key value).mediumClose medium = (sh.mediumClose medium).withEntry m key value := by
  cases medium with
  | web => rfl
  | memory i =>
    refine change_withEntry sh i ?_ .mediumClose
    intro _ mem
    rfl

/-- Closing a store looks at no entry. -/
theorem closeStore_withEntry (sh : Shell α) (s : StoreId) :
    (sh.withEntry m key value).closeStore s = (sh.closeStore s).withEntry m key value := by
  rcases e : sh.stores[s]? with - | st
  · have e' : (sh.withEntry m key value).stores[s]? = none := e
    simp only [closeStore, e, e']
  · have e' : (sh.withEntry m key value).stores[s]? = some st := e
    by_cases hc : st.closed = true
    · simp only [closeStore, e, e', hc, if_true]
    · by_cases hi : st.config.ignoreClose = true
      · simp only [closeStore, e, e', hc, hi, if_true]
        rfl
      · simp only [closeStore, e, e', hc, hi]
        exact mediumClose_withEntry
          { sh with stores := sh.stores.modify s fun st => { st with closed := true } } st.medium

end Shell

end AppShell
