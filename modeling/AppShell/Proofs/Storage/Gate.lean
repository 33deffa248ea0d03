/-
AppShell/Proofs/Storage/Gate.lean

The gate of a store.

Every access through a binding goes through one gate: the store that its source
leads to, if that store lets its level through (`admitted`).  What is read is
what the medium of that store holds (`valueOf_eq`); a write or a removal changes
that medium and is announced by that store (`changeBinding_eq`); where no store
admits the access, nothing is read and nothing happens.

A store is installed in a context by attaching a new relay to it and detaching
the old one (`install`); a replacement installs the store and then tells the
listeners of the context (`replaceStore_eq`).
-/
import AppShell.Shell.Storage

namespace AppShell.Shell

variable {α : Type}

/-- The store that an access goes through, if it lets its level through. -/
def admitted (sh : Shell α) (b : Binding) : Option StoreId :=
  (sh.activeStore b.source).filter fun s => sh.admits s b.level

/-- The value that a reader gets. -/
def valueOf (sh : Shell α) (source : StoreSource) (key : String) (level : ConsentLevel) :
    Option String :=
  (sh.read source key level).1

/-- What a medium holds under a key. -/
def entry (sh : Shell α) (m : Medium) (key : String) : Option String :=
  match m with
  | .web => none
  | .memory i => sh.memories[i]?.bind fun mem => mem.get? key

/-- Changes the entry of a key of a medium; none takes it away. -/
def putEntry (sh : Shell α) (m : Medium) (key : String) : Option String → Shell α
  | some value => sh.mediumSet m key value
  | none => sh.mediumRemove m key

/-- A store admits a binding when it is the active one of the source and grants the level. -/
theorem admitted_eq_some {sh : Shell α} {b : Binding} {s : StoreId}
    (h : sh.admitted b = some s) :
    sh.activeStore b.source = some s ∧
      ∃ st, sh.stores[s]? = some st ∧ st.consent.allows b.level = true := by
  obtain ⟨ha, hs⟩ := Option.filter_eq_some_iff.1 h
  refine ⟨ha, ?_⟩
  rcases es : sh.stores[s]? with - | st
  · simp [admits, es] at hs
  · exact ⟨st, rfl, by simpa [admits, es] using hs⟩

theorem mediumOf_eq {sh : Shell α} {s : StoreId} {st : Store} (h : sh.stores[s]? = some st) :
    sh.mediumOf s = st.medium := by
  simp [mediumOf, h]

/-! ### Accesses -/

/-- A medium is asked for the entry that it holds. -/
theorem mediumGet_fst (sh : Shell α) (m : Medium) (key : String) :
    (sh.mediumGet m key).1 = sh.entry m key := by
  cases m with
  | web => rfl
  | memory i =>
    rcases e : sh.memories[i]? with - | mem <;> simp [mediumGet, entry, e]

/-- What a binding reads is the entry of the store that admits it, if one does. -/
theorem valueOf_eq (sh : Shell α) (source : StoreSource) (key : String) (level : ConsentLevel) :
    sh.valueOf source key level =
      (sh.admitted ⟨source, key, level⟩).bind fun s => sh.entry (sh.mediumOf s) key := by
  rcases ea : sh.activeStore source with - | s
  · simp [valueOf, read, admitted, ea]
  · rcases es : sh.stores[s]? with - | st
    · simp [valueOf, read, admitted, ea, readStore, admits, es, Option.filter_some]
    · by_cases hl : st.consent.allows level = true
      · simp [valueOf, read, admitted, ea, readStore, admits, es, hl, mediumGet_fst, mediumOf,
          Option.filter_some]
      · simp [valueOf, read, admitted, ea, readStore, admits, es, hl, Option.filter_some]

/-- Writes a value through a binding; none removes its key. -/
def changeBinding (act : Act α) (b : Binding) : Option String → Shell α → Shell α
  | some value => setBinding act b value
  | none => clearBinding act b

/-- An admitted change is announced by the store that it goes through; any other does nothing. -/
theorem changeBinding_eq (act : Act α) (b : Binding) (value : Option String) (sh : Shell α) :
    changeBinding act b value sh = match sh.admitted b with
      | none => sh
      | some s => announce act s (.written b.key) (sh.putEntry (sh.mediumOf s) b.key value) := by
  rcases ea : sh.activeStore b.source with - | s
  · cases value <;>
      simp [changeBinding, setBinding, clearBinding, write, remove, admitted, ea]
  · by_cases hs : sh.admits s b.level = true
    · cases value <;>
        simp [changeBinding, setBinding, clearBinding, write, remove, admitted, ea, writeStore,
          removeStore, hs, putEntry, Option.filter_some]
    · cases value <;>
        simp [changeBinding, setBinding, clearBinding, write, remove, admitted, ea, writeStore,
          removeStore, hs, Option.filter_some]

/-! ### Changing an entry -/

/-- A change of one place of a table that keeps a part of what stands there keeps it everywhere. -/
theorem map_getElem?_modify {β γ : Type} (xs : Array β) (i : Nat) {f : β → β} {part : β → γ}
    (hf : ∀ x, part (f x) = part x) (j : Nat) :
    (xs.modify i f)[j]?.map part = xs[j]?.map part := by
  rw [Array.getElem?_modify]
  split
  · rw [Option.map_map]
    exact congrArg (fun g => Option.map g _) (funext hf)
  · rfl

/-- A change of one place of an array, seen through a part of what stands there. -/
theorem map_getElem?_modify_of {β γ : Type} {xs : Array β} {i : Nat} {f : β → β} {part : β → γ}
    {g : γ → γ} (h : ∀ b, xs[i]? = some b → part (f b) = g (part b)) (j : Nat) :
    (xs.modify i f)[j]?.map part =
      if i = j then (xs[j]?.map part).map g else xs[j]?.map part := by
  rw [Array.getElem?_modify]
  split
  · next hij =>
    subst hij
    rcases e : xs[i]? with - | b
    · rfl
    · exact congrArg some (h b e)
  · rfl

/-- A change of one element goes along with a view of all. -/
theorem map_modify {β γ : Type} (xs : Array β) (i : Nat) {g : β → γ} {f : β → β} {f' : γ → γ}
    (h : ∀ x, g (f x) = f' (g x)) : (xs.modify i f).map g = (xs.map g).modify i f' := by
  apply Array.ext_getElem?
  intro k
  rw [Array.getElem?_map, Array.getElem?_modify, Array.getElem?_modify, Array.getElem?_map]
  split
  · rw [Option.map_map, Option.map_map]
    exact congrArg (fun t => Option.map t _) (funext h)
  · rfl

/-- A change that a view does not show leaves the view as it was. -/
theorem map_modify_of_same {β γ : Type} (xs : Array β) (i : Nat) {g : β → γ} {f : β → β}
    (h : ∀ x, g (f x) = g x) : (xs.modify i f).map g = xs.map g := by
  apply Array.ext_getElem?
  intro k
  rw [Array.getElem?_map, Array.getElem?_map, map_getElem?_modify xs i h]

/-- Changing an entry changes nothing but the memories and the log. -/
theorem putEntry_frame (sh : Shell α) (m : Medium) (key : String) (value : Option String) :
    sh.putEntry m key value =
      { sh with
        memories := (sh.putEntry m key value).memories
        log := (sh.putEntry m key value).log } := by
  cases value <;> cases m <;> simp only [putEntry, mediumSet, mediumRemove] <;> split <;> rfl

theorem size_memories_putEntry (sh : Shell α) (m : Medium) (key : String)
    (value : Option String) :
    (sh.putEntry m key value).memories.size = sh.memories.size := by
  cases value <;> cases m <;> simp only [putEntry, mediumSet, mediumRemove] <;>
    split <;> simp [note]

/-- The entry of a key of a memory is replaced, and all other entries stay. -/
theorem entry_putEntry (sh : Shell α) {m : Medium} (hm : ∀ i, m = .memory i → i < sh.memories.size)
    (key : String) (value : Option String) (i : MemoryId) (key' : String) :
    (sh.putEntry m key value).entry (.memory i) key' =
      if m = .memory i ∧ key = key' then value else sh.entry (.memory i) key' := by
  cases m with
  | web => cases value <;> simp [putEntry, mediumSet, mediumRemove]
  | memory j =>
    obtain ⟨mem, hj⟩ : ∃ mem, sh.memories[j]? = some mem :=
      ⟨_, Array.getElem?_eq_getElem (hm j rfl)⟩
    by_cases hij : j = i
    · subst hij
      by_cases hk : key = key'
      · cases value <;>
          simp [putEntry, mediumSet, mediumRemove, hj, entry, note, Array.getElem?_modify, hk]
      · cases value <;>
          simp [putEntry, mediumSet, mediumRemove, hj, entry, note, Array.getElem?_modify, hk,
            Ne.symm hk]
    · cases value <;>
        simp [putEntry, mediumSet, mediumRemove, hj, entry, note, Array.getElem?_modify, hij]

/-- A change of another entry leaves an entry as it is. -/
theorem entry_putEntry_of_ne (sh : Shell α) {m : Medium} {i : MemoryId} {key key' : String}
    (h : m = .memory i → key ≠ key') (value : Option String) :
    (sh.putEntry m key value).entry (.memory i) key' = sh.entry (.memory i) key' := by
  by_cases hm : ∀ j, m = .memory j → j < sh.memories.size
  · rw [entry_putEntry sh hm, if_neg]
    rintro ⟨hmi, hk⟩
    exact h hmi hk
  · -- there is no such memory to change
    cases m with
    | web => exact absurd (fun j hj => by cases hj) hm
    | memory j =>
      have hnone : sh.memories[j]? = none := by
        rw [Array.getElem?_eq_none_iff]
        refine Nat.le_of_not_lt fun hlt => hm ?_
        rintro j' hj
        cases hj
        exact hlt
      cases value <;> simp only [putEntry, mediumSet, mediumRemove, hnone]

/-! ### Installing a store -/

/-- The shell after a store was installed in a context, before the listeners are told. -/
def install (sh : Shell α) (c : ContextId) (ct : StoreContext) (s : StoreId) : Shell α :=
  { (sh.attachObserver s (.relay c)).2 with
    contexts := (sh.attachObserver s (.relay c)).2.contexts.modify c fun ct =>
      { ct with active := s, relay := (sh.attachObserver s (.relay c)).1 } }.detach
    (.observers ct.active) ct.relay

theorem attachObserver_eq {sh : Shell α} {s : StoreId} {st : Store} (hs : sh.stores[s]? = some st)
    (o : StoreObserver) :
    sh.attachObserver s o = (st.observers.issued + 1,
      { sh with
        stores := sh.stores.modify s fun st' =>
          { st' with observers := (st.observers.insert o).2 } }) := by
  simp only [attachObserver, hs]
  rfl

/-- Observers are attached to stores, not to contexts. -/
theorem contexts_attachObserver (sh : Shell α) (s : StoreId) (o : StoreObserver) :
    (sh.attachObserver s o).2.contexts = sh.contexts := by
  unfold attachObserver
  split <;> rfl

/-- Installing a store changes the active store and the wire of one context. -/
theorem contexts_install (sh : Shell α) (c : ContextId) (ct : StoreContext) (s : StoreId) :
    (sh.install c ct s).contexts = sh.contexts.modify c fun ct =>
      { ct with active := s, relay := (sh.attachObserver s (.relay c)).1 } := by
  simp only [install, detach, contexts_attachObserver]

/-- A context that takes a store tells the listeners that it had then, who read that store. -/
theorem replaceStore_eq (act : Act α) {c : ContextId} {sh : Shell α} {ct : StoreContext}
    (hc : sh.contexts[c]? = some ct) (s : StoreId) :
    (replaceStore act c s sh).2 = tell act (.store s) ct.keyed.snapshot (sh.install c ct s) := by
  have hlisteners : ((sh.install c ct s).contexts[c]?.map fun ct => ct.keyed.snapshot).getD []
      = ct.keyed.snapshot := by
    rw [contexts_install, Array.getElem?_modify, if_pos rfl, hc]
    rfl
  rw [← hlisteners]
  simp only [replaceStore, hc]
  rfl

end AppShell.Shell
