/-
AppShell/Proofs/Storage/Books.lean

Shells that agree with their ledgers.

`Books past sh` says that every store of a shell has the medium, the flags and the
grants that the ledger says and was closed if the ledger says so, and that the
memories were closed, and closes recorded, as the ledger lists it.  Most steps leave
the terms of all stores, the labels of all memories and what was closed as they are
(`SameBooks`): in particular a write, a read and a replacement do.  The steps that
do not have one lemma each.

The main statement is `Books.yields`: the books are kept at every station of every
run in which each step refers to what was there.
-/
import AppShell.Proofs.Storage.Ledger
import Mathlib.Data.List.Basic

namespace AppShell

variable {α : Type}

/-! ### Shells with the same books -/

/-- A store to which nobody listens. -/
def Store.bare (st : Store) : Store :=
  { st with keyed := .empty, observers := .empty }

/-- A memory that holds nothing. -/
def Memory.bare (mem : Memory) : Memory :=
  { mem with items := [] }

namespace Shell

variable {sh sh' sh'' : Shell α}

/-- The same stores but for those who listen, the same memories but for what they hold, and the same
closes. -/
structure SameBooks (sh sh' : Shell α) : Prop where
  stores : sh'.stores.map Store.bare = sh.stores.map Store.bare
  memories : sh'.memories.map Memory.bare = sh.memories.map Memory.bare
  closes : sh'.closes = sh.closes

namespace SameBooks

theorem refl (sh : Shell α) : SameBooks sh sh := ⟨rfl, rfl, rfl⟩

theorem trans (h : SameBooks sh sh') (h' : SameBooks sh' sh'') : SameBooks sh sh'' where
  stores := h'.stores.trans h.stores
  memories := h'.memories.trans h.memories
  closes := h'.closes.trans h.closes

theorem symm (h : SameBooks sh sh') : SameBooks sh' sh :=
  ⟨h.stores.symm, h.memories.symm, h.closes.symm⟩

/-- Records of other events than closes are no part of the books. -/
theorem of_recordsOnly (h : RecordsOnly sh sh') : SameBooks sh sh' where
  stores := by rw [h.same]
  memories := by rw [h.same]
  closes := h.closes

/-- A store may change in those who listen to it. -/
theorem modify_stores (sh : Shell α) (s : StoreId) {f : Store → Store}
    (hf : ∀ st, (f st).bare = st.bare) :
    SameBooks sh { sh with stores := sh.stores.modify s f } where
  stores := map_modify_of_same sh.stores s hf
  memories := rfl
  closes := rfl

/-- A memory may change in what it holds, if the change is noted as something else than a close. -/
theorem modify_memories (sh : Shell α) (i : MemoryId) {f : Memory → Memory}
    (hf : ∀ mem, (f mem).bare = mem.bare) {e : Event} (he : e.isClose = false) :
    SameBooks sh ({ sh with memories := sh.memories.modify i f }.note e) where
  stores := rfl
  memories := map_modify_of_same sh.memories i hf
  closes := (RecordsOnly.note sh he).closes

/-- An entry is no matter of the books. -/
theorem putEntry (sh : Shell α) (m : Medium) (key : String) (value : Option String) :
    SameBooks sh (sh.putEntry m key value) := by
  cases m with
  | web => cases value <;> exact refl sh
  | memory i =>
    rcases e : sh.memories[i]? with - | mem
    · cases value <;> simp only [Shell.putEntry, mediumSet, mediumRemove, e] <;> exact refl sh
    · cases value with
      | none =>
        simp only [Shell.putEntry, mediumRemove, e]
        exact modify_memories sh i (f := fun mem => mem.remove key) (fun _ => rfl) rfl
      | some text =>
        simp only [Shell.putEntry, mediumSet, e]
        exact modify_memories sh i (f := fun mem => mem.set key text) (fun _ => rfl) rfl

theorem put (sh : Shell α) (b : Binding) (value : Option String) :
    SameBooks sh (sh.put b value) := by
  rw [Shell.put]
  split
  · exact refl sh
  · exact putEntry sh _ b.key value

/-- An observer is no matter of the books. -/
theorem attachObserver (sh : Shell α) (s : StoreId) (o : StoreObserver) :
    SameBooks sh (sh.attachObserver s o).2 := by
  unfold Shell.attachObserver
  split
  · exact refl sh
  · exact modify_stores sh s fun _ => rfl

/-- Nor is one that leaves. -/
theorem detach (sh : Shell α) (table : ListenerTable) (number : Nat) :
    SameBooks sh (sh.detach table number) := by
  cases table with
  | keyed s | observers s => exact modify_stores sh s fun _ => rfl
  | context c | queue q | panel p => exact ⟨rfl, rfl, rfl⟩

/-- A replacement closes nothing and changes neither stores nor memories. -/
theorem install (sh : Shell α) (c : ContextId) (ct : StoreContext) (s : StoreId) :
    SameBooks sh (sh.install c ct s) := by
  have hwired : SameBooks sh { (sh.attachObserver s (.relay c)).2 with
      contexts := (sh.attachObserver s (.relay c)).2.contexts.modify c fun ct =>
        { ct with active := s, relay := (sh.attachObserver s (.relay c)).1 } } :=
    (attachObserver sh s (.relay c)).trans ⟨rfl, rfl, rfl⟩
  exact hwired.trans (detach _ (.observers ct.active) ct.relay)

theorem addContext (sh : Shell α) (s : StoreId) :
    SameBooks sh ((sh.addContext s).2.hold (.context (sh.addContext s).1)) :=
  (attachObserver sh s _).trans ⟨rfl, rfl, rfl⟩

theorem watch (sh : Shell α) (s : StoreId) (label : String) (callback : CallbackId) :
    SameBooks sh (sh.watch s label callback).2 :=
  (attachObserver sh s _).trans ⟨rfl, rfl, rfl⟩

theorem listen (sh : Shell α) (source : StoreSource) (l : KeyListener) :
    SameBooks sh (sh.listen source l).2 := by
  cases source with
  | context c => rcases e : sh.contexts[c]? with - | ct <;> simp only [Shell.listen, e] <;>
      exact ⟨rfl, rfl, rfl⟩
  | store s =>
    rcases e : sh.stores[s]? with - | st
    · simp only [Shell.listen, e]
      exact ⟨rfl, rfl, rfl⟩
    · have hlisten := modify_stores sh s
        (f := fun st' => { st' with keyed := (st.keyed.insert l).2 }) fun _ => rfl
      simp only [Shell.listen, e]
      exact hlisten.trans ⟨rfl, rfl, rfl⟩

theorem unsubscribe (sh : Shell α) (n : SubscriptionId) : SameBooks sh (sh.unsubscribe n) := by
  unfold Shell.unsubscribe
  split
  · split
    · exact (detach sh _ _).trans ⟨rfl, rfl, rfl⟩
    · exact refl sh
  · exact refl sh

/-- A store under a number is the same one, but for those who listen. -/
theorem exists_store (h : SameBooks sh sh') {s : StoreId} {st' : Store}
    (hs : sh'.stores[s]? = some st') : ∃ st, sh.stores[s]? = some st ∧ st.bare = st'.bare := by
  have hbare : sh'.stores[s]?.map Store.bare = sh.stores[s]?.map Store.bare := by
    rw [← Array.getElem?_map, ← Array.getElem?_map, h.stores]
  rw [hs] at hbare
  exact Option.map_eq_some_iff.1 hbare.symm

/-- Where the books are the same, so are the memories but for what they hold. -/
theorem exists_memory (h : SameBooks sh sh') {i : MemoryId} {mem' : Memory}
    (hi : sh'.memories[i]? = some mem') :
    ∃ mem, sh.memories[i]? = some mem ∧ mem.bare = mem'.bare := by
  have hbare : sh'.memories[i]?.map Memory.bare = sh.memories[i]?.map Memory.bare := by
    rw [← Array.getElem?_map, ← Array.getElem?_map, h.memories]
  rw [hi] at hbare
  exact Option.map_eq_some_iff.1 hbare.symm

end SameBooks

/-- The event that the close of a medium records. -/
def closeOf? (sh : Shell α) : Medium → Option Event
  | .web => none
  | .memory i => sh.memories[i]?.map fun mem => .mediumClose mem.label

/-- Closing a medium leaves the stores as they are. -/
theorem stores_mediumClose (sh : Shell α) (m : Medium) :
    (sh.mediumClose m).stores = sh.stores := by
  unfold mediumClose
  repeat' split
  all_goals rfl

/-- The shell in which a store is marked as closed. -/
def markClosed (sh : Shell α) (s : StoreId) : Shell α :=
  { sh with stores := sh.stores.modify s fun st => { st with closed := true } }

/-- The mediums were closed as a list says, the newest first, and nothing else was. -/
structure ClosedBy (closings : List (Option StoreId × Medium)) (sh : Shell α) : Prop where
  memory : ∀ (i : MemoryId) mem, sh.memories[i]? = some mem →
    (mem.closed = true ↔ ∃ c ∈ closings, c.2 = .memory i)
  closes : sh.closes = closings.reverse.filterMap fun c => sh.closeOf? c.2

namespace ClosedBy

variable {closings : List (Option StoreId × Medium)}

/-- What was closed is read off the books. -/
theorem of_sameBooks (h : ClosedBy closings sh) (hs : SameBooks sh sh') : ClosedBy closings sh' where
  memory i mem' hi := by
    obtain ⟨mem, hmem, hbare⟩ := hs.exists_memory hi
    have hclosed : mem.closed = mem'.closed := (Memory.mk.inj hbare).2.2
    rw [← hclosed]
    exact h.memory i mem hmem
  closes := by
    have hsame : sh'.closeOf? = sh.closeOf? := by
      funext m
      cases m with
      | web => rfl
      | memory i =>
        have hbare : sh'.memories[i]?.map Memory.bare = sh.memories[i]?.map Memory.bare := by
          rw [← Array.getElem?_map, ← Array.getElem?_map, hs.memories]
        have hlabel := congrArg (Option.map fun mem => Event.mediumClose mem.label) hbare
        rwa [Option.map_map, Option.map_map] at hlabel
    rw [hs.closes, h.closes, hsame]

/-- What does not touch the memories and closes none. -/
theorem of_memories (h : ClosedBy closings sh) (hm : sh'.memories = sh.memories)
    (hc : sh'.closes = sh.closes) : ClosedBy closings sh' where
  memory i mem hi := h.memory i mem (hm ▸ hi)
  closes := by
    have hsame : sh'.closeOf? = sh.closeOf? := by
      funext m
      cases m with
      | web => rfl
      | memory i => simp only [closeOf?, hm]
    rw [hc, h.closes, hsame]

/-- A memory that is new was not closed. -/
theorem newMemory (h : ClosedBy closings sh) (label : String)
    (hnew : ∀ c ∈ closings, c.2 ≠ .memory sh.memories.size) :
    ClosedBy closings { sh with memories := sh.memories.push (.empty label) } where
  memory i mem hi := by
    replace hi : (sh.memories.push (.empty label))[i]? = some mem := hi
    rw [Array.getElem?_push] at hi
    split at hi
    · -- nobody closed a memory under this number
      next he =>
      subst he
      obtain rfl := Option.some.inj hi
      refine ⟨nofun, ?_⟩
      rintro ⟨c, hc, hm⟩
      exact absurd hm (hnew c hc)
    · exact h.memory i mem hi
  closes := by
    refine h.closes.trans (List.filterMap_congr fun c hc => ?_)
    -- the memories that were closed are told from the new one by their numbers
    have hne := hnew c (List.mem_reverse.1 hc)
    rcases hm : c.2 with i | -
    · have hi : i ≠ sh.memories.size := fun he => hne (by rw [hm, he])
      simp only [closeOf?, Array.getElem?_push, if_neg hi]
    · rfl

/-- The close of a medium adds to the list. -/
theorem mediumClose (h : ClosedBy closings sh) (who : Option StoreId) (m : Medium) :
    ClosedBy ((who, m) :: closings) (sh.mediumClose m) := by
  have hnothing : sh.mediumClose m = sh → sh.closeOf? m = none →
      (∀ i mem, sh.memories[i]? = some mem → m ≠ .memory i) →
      ClosedBy ((who, m) :: closings) (sh.mediumClose m) := by
    intro hsame hclose hother
    rw [hsame]
    refine ⟨fun i mem hi => (h.memory i mem hi).trans ?_, ?_⟩
    · simp [hother i mem hi]
    · rw [h.closes, List.reverse_cons, List.filterMap_append]
      simp [hclose]
  cases m with
  | web => exact hnothing rfl rfl fun _ _ _ => nofun
  | memory j =>
    rcases e : sh.memories[j]? with - | mem
    · refine hnothing (by simp only [Shell.mediumClose, e]) (by simp only [closeOf?, e]; rfl) ?_
      rintro i mem hi he
      rw [Medium.memory.inj he, hi] at e
      cases e
    · simp only [Shell.mediumClose, e]
      have hget : ∀ i, (sh.memories.modify j fun mem => { mem with closed := true })[i]? =
          if j = i then sh.memories[i]?.map fun mem => { mem with closed := true }
          else sh.memories[i]? := fun _ => Array.getElem?_modify
      refine ⟨fun i mem' hi => ?status, ?events⟩
      case status =>
        replace hi : (sh.memories.modify j fun mem => { mem with closed := true })[i]? = some mem' :=
          hi
        rw [hget] at hi
        by_cases hij : j = i
        · subst hij
          rw [if_pos rfl, e] at hi
          obtain rfl := Option.some.inj hi
          exact ⟨fun _ => ⟨_, List.mem_cons_self, rfl⟩, fun _ => rfl⟩
        · rw [if_neg hij] at hi
          refine (h.memory i mem' hi).trans ?_
          simp [hij]
      case events =>
        -- no memory has got another label
        have hlabels : ∀ m, closeOf? { sh with
            memories := sh.memories.modify j fun mem => { mem with closed := true } } m =
              sh.closeOf? m := by
          intro m
          cases m with
          | web => rfl
          | memory i =>
            simp only [closeOf?, hget]
            split
            · rw [Option.map_map]
              rfl
            · rfl
        have hclose : sh.closeOf? (.memory j) = some (.mediumClose mem.label) := by
          rw [closeOf?, e]
          rfl
        show List.filter Event.isClose (sh.log ++ [.mediumClose mem.label]) =
          List.filterMap (fun c : Option StoreId × Medium => closeOf? { sh with
            memories := sh.memories.modify j fun mem => { mem with closed := true } } c.2) _
        simp only [hlabels]
        rw [List.filter_append, List.reverse_cons, List.filterMap_append, List.filterMap_cons, hclose]
        exact congrArg (· ++ [_]) h.closes

end ClosedBy

end Shell

/-- A store is the one that a ledger says. -/
structure Ledger.Terms (past : Ledger) (s : StoreId) (st : Store) : Prop where
  medium : past.history.mediumOf s = some st.medium
  config : past.config s = some st.config
  consent : ∀ level, st.consent.allows level = past.history.permits s level
  closed : st.closed = past.closed s

namespace Ledger.Terms

variable {past : Ledger} {s t : StoreId} {st st' : Store}

/-- The close of another store. -/
theorem other (h : past.Terms t st) (ht : t ≠ s) :
    Ledger.Terms (.storage (.close s) :: past) t st where
  medium := h.medium
  config := h.config
  consent := h.consent
  closed := by rw [Ledger.closed, beq_eq_false_iff_ne.2 (Ne.symm ht), Bool.false_or, h.closed]

/-- The store that is closed. -/
theorem close (h : past.Terms s st) :
    Ledger.Terms (.storage (.close s) :: past) s { st with closed := true } where
  medium := h.medium
  config := h.config
  consent := h.consent
  closed := by simp [Ledger.closed]

/-- The close of the medium that the close of a store makes. -/
theorem closing? (h : past.Terms s st) : past.closing? (.storage (.close s)) =
    if st.config.ignoreClose = false ∧ st.closed = false then some (some s, st.medium) else none := by
  have howns : past.Owns s ↔ st.config.ignoreClose = false := by
    rw [Ledger.Owns, h.config]
    simp
  rw [Ledger.closing?, h.medium, ← h.closed]
  simp only [howns]
  rfl

end Ledger.Terms

/-- A shell agrees with its ledger. -/
structure Books (past : Ledger) (sh : Shell α) : Prop extends sh.ClosedBy past.closings where
  memories : sh.memories.size = past.history.memories
  stores : sh.stores.size = past.history.stores
  terms : ∀ (s : StoreId) st, sh.stores[s]? = some st → past.Terms s st

namespace Books

variable {past : Ledger} {step : ClosingStep} {sh sh' : Shell α}

open Shell (SameBooks)

theorem empty : Books [] (Shell.empty : Shell α) where
  memory i mem hi := by cases hi
  closes := rfl
  memories := rfl
  stores := rfl
  terms s st hs := by cases hs

/-- Whether a shell agrees with its ledger is a matter of the books. -/
theorem of_sameBooks (h : Books past sh) (hs : SameBooks sh sh') : Books past sh' where
  toClosedBy := h.toClosedBy.of_sameBooks hs
  memories := by
    have hsize := congrArg Array.size hs.memories
    rw [Array.size_map, Array.size_map] at hsize
    exact hsize.trans h.memories
  stores := by
    have hsize := congrArg Array.size hs.stores
    rw [Array.size_map, Array.size_map] at hsize
    exact hsize.trans h.stores
  terms s st' hst := by
    obtain ⟨st, hst, hbare⟩ := hs.exists_store hst
    obtain ⟨hmedium, hconfig, hconsent, -, -, hclosed⟩ := Store.mk.inj hbare
    obtain ⟨hm, hc, hl, ho⟩ := h.terms s st hst
    exact ⟨hmedium ▸ hm, hconfig ▸ hc, hconsent ▸ hl, hclosed ▸ ho⟩

/-- A step that keeps the books may be entered into the ledger. -/
theorem use (hs : step.KeepsBooks) (h : Books past sh) (hsame : SameBooks sh sh') :
    Books (step :: past) sh' := by
  have hsh' := h.of_sameBooks hsame
  rcases step with step | m
  · cases step <;> first
      | exact hs.elim
      | exact
        { toClosedBy := hsh'.toClosedBy
          memories := hsh'.memories
          stores := hsh'.stores
          terms := fun s st hst => by
            obtain ⟨hm, hc, hl, ho⟩ := hsh'.terms s st hst
            exact ⟨hm, hc, hl, ho⟩ }
  · exact hs.elim

/-- A new memory was never closed. -/
theorem newMemory (hv : past.Valid) (h : Books past sh) (label : String) :
    Books (.storage (.newMemory label) :: past)
      { sh with memories := sh.memories.push (.empty label) } where
  toClosedBy := by
    refine h.toClosedBy.newMemory label fun c hc hm => ?_
    have hthere := Ledger.hasMedium_of_mem_closings hv hc
    rw [hm, h.memories] at hthere
    exact Nat.lt_irrefl _ hthere
  memories := by
    show (sh.memories.push _).size = past.history.memories + 1
    rw [Array.size_push, h.memories]
  stores := h.stores
  terms s st hst := by
    obtain ⟨hm, hc, hl, ho⟩ := h.terms s st hst
    exact ⟨hm, hc, hl, ho⟩

/-- A new store has the terms that it was made on, and was never closed. -/
theorem newStore (hv : past.Valid) (h : Books past sh) (m : Medium) (config : StoreConfig) :
    Books (.storage (.newStore m config) :: past) (sh.addStore (.new m config)).2 where
  toClosedBy := h.toClosedBy.of_memories rfl rfl
  memories := h.memories
  stores := by
    show (sh.stores.push _).size = past.history.stores + 1
    rw [Array.size_push, h.stores]
  terms s st hst := by
    replace hst : (sh.stores.push (.new m config))[s]? = some st := hst
    rw [Array.getElem?_push, h.stores] at hst
    by_cases hs : s = past.history.stores
    · rw [if_pos hs] at hst
      obtain rfl := Option.some.inj hst
      have hopen : past.closed s = false := by
        -- a close would have referred to a store that was not there
        refine Bool.eq_false_iff.2 fun hclosed => ?_
        exact absurd (Ledger.lt_of_closed hv hclosed) (hs ▸ Nat.lt_irrefl _)
      refine ⟨?_, ?_, fun level => ?_, hopen.symm⟩
      · exact if_pos hs
      · exact if_pos hs
      · -- nothing is granted yet but what always is
        have hnone : past.history.stores = s := hs.symm
        cases level <;> simp [Ledger.history, History.permits, History.granted, hnone, Store.new,
          ConsentSet.allows, ConsentSet.empty, ConsentSet.contains]
    · rw [if_neg hs] at hst
      obtain ⟨hm, hc, hl, ho⟩ := h.terms s st hst
      refine ⟨(if_neg hs).trans hm, (if_neg hs).trans hc, fun level => (hl level).trans ?_, ho⟩
      simp [Ledger.history, History.permits, History.granted, hs]

/-- A grant changes the level of one store and nothing else in its terms. -/
theorem grant (h : Books past sh) (s : StoreId) (levels : List ConsentLevel) :
    Books (.storage (.setConsent s levels) :: past) (sh.grant s levels) where
  toClosedBy := h.toClosedBy.of_memories rfl rfl
  memories := h.memories
  stores := Array.size_modify.trans h.stores
  terms t st hst := by
    replace hst : (sh.stores.modify s fun st => { st with consent := .ofList levels })[t]? =
      some st := hst
    rw [Array.getElem?_modify] at hst
    by_cases ht : s = t
    · subst ht
      rw [if_pos rfl] at hst
      obtain ⟨old, hold, rfl⟩ := Option.map_eq_some_iff.1 hst
      obtain ⟨hm, hc, -, ho⟩ := h.terms s old hold
      refine ⟨hm, hc, fun level => ?_, ho⟩
      simp [Ledger.history, History.permits, History.granted, ConsentSet.allows]
    · rw [if_neg ht] at hst
      obtain ⟨hm, hc, hl, ho⟩ := h.terms t st hst
      refine ⟨hm, hc, fun level => (hl level).trans ?_, ho⟩
      simp [Ledger.history, History.permits, History.granted, Ne.symm ht]

/-- A medium that is closed by itself is entered as closed by no store. -/
theorem closeMedium (h : Books past sh) (m : Medium) :
    Books (.closeMedium m :: past) (sh.mediumClose m) where
  toClosedBy := h.toClosedBy.mediumClose none m
  memories := (Shell.sameData_mediumClose sh m).memories.trans h.memories
  stores := (Shell.sameData_mediumClose sh m).stores.trans h.stores
  terms s st hst := by
    rw [Shell.stores_mediumClose] at hst
    obtain ⟨hm, hc, hl, ho⟩ := h.terms s st hst
    exact ⟨hm, hc, hl, ho⟩

/-- The store that is marked as closed is the one whose closing the ledger enters. -/
theorem terms_markClosed (h : Books past sh) (s : StoreId) {t : StoreId} {st : Store}
    (ht : (sh.markClosed s).stores[t]? = some st) :
    Ledger.Terms (.storage (.close s) :: past) t st := by
  rw [Shell.markClosed, Array.getElem?_modify] at ht
  by_cases hts : s = t
  · subst hts
    rw [if_pos rfl] at ht
    obtain ⟨old, hold, rfl⟩ := Option.map_eq_some_iff.1 ht
    exact (h.terms s old hold).close
  · rw [if_neg hts] at ht
    exact (h.terms t st ht).other (Ne.symm hts)

/-- A store closes its medium when it is closed for the first time, unless it ignores this. -/
theorem closeStore {s : StoreId} (hs : s < past.history.stores) (h : Books past sh) :
    Books (.storage (.close s) :: past) (sh.closeStore s) := by
  obtain ⟨st, hst⟩ : ∃ st, sh.stores[s]? = some st :=
    -- a valid step closes a store that is there; whether the ledger enters a close of its medium
    -- depends on what the store says of itself
    ⟨_, Array.getElem?_eq_getElem (h.stores.symm ▸ hs)⟩
  have hclosing := (h.terms s st hst).closing?
  have hsize : (sh.markClosed s).stores.size = past.history.stores :=
    Array.size_modify.trans h.stores
  rcases hclosed : st.closed with - | -
  · -- the first close reaches the medium unless the store ignores this
    rcases hignore : st.config.ignoreClose with - | -
    · rw [if_pos ⟨hignore, hclosed⟩] at hclosing
      have hclose : sh.closeStore s = (sh.markClosed s).mediumClose st.medium := by
        simp only [Shell.closeStore, hst, hclosed, hignore, Bool.false_eq_true, if_false]
        rfl
      have hsame := Shell.sameData_mediumClose (sh.markClosed s) st.medium
      rw [hclose]
      refine ⟨?_, hsame.memories.trans h.memories, hsame.stores.trans hsize, fun t st' ht => ?_⟩
      · have hmarked : (sh.markClosed s).ClosedBy past.closings := h.toClosedBy.of_memories rfl rfl
        rw [Ledger.closings, hclosing]
        exact hmarked.mediumClose (some s) st.medium
      · rw [Shell.stores_mediumClose] at ht
        exact h.terms_markClosed s ht
    · rw [if_neg fun ho => Bool.false_ne_true (ho.1.symm.trans hignore)] at hclosing
      have hclose : sh.closeStore s = sh.markClosed s := by
        simp only [Shell.closeStore, hst, hclosed, hignore, Bool.false_eq_true, if_false, if_true]
        rfl
      rw [hclose]
      refine ⟨?_, h.memories, hsize, fun t st' ht => h.terms_markClosed s ht⟩
      rw [Ledger.closings, hclosing]
      exact h.toClosedBy.of_memories rfl rfl
  · -- a store that was closed before stays as it is
    rw [if_neg fun ho => Bool.false_ne_true (ho.2.symm.trans hclosed)] at hclosing
    have hclose : sh.closeStore s = sh := by simp only [Shell.closeStore, hst, hclosed, if_true]
    rw [hclose]
    refine ⟨?_, h.memories, h.stores, fun t st' ht => ?_⟩
    · rw [Ledger.closings, hclosing]
      exact h.toClosedBy
    · by_cases hts : t = s
      · subst hts
        obtain rfl := Option.some.inj (hst.symm.trans ht)
        have hsame : { st with closed := true } = st := by rw [← hclosed]
        exact hsame ▸ (h.terms t st hst).close
      · exact (h.terms t st' ht).other hts

/-! ### Runs -/

/-- The books of a valid ledger. -/
def Kept (_ : Unit) (past : Ledger) (sh : Shell α) : Prop :=
  past.Valid → Books past sh

theorem ofRecords : OfRecords (Kept (α := α)) :=
  fun _ _ _ _ hsame h hv => (h hv).of_sameBooks (.of_recordsOnly hsame)

/-- Every step keeps the books as long as its callbacks do. -/
theorem yields_step {act : Shell.Act α} {tr : Answers ClosingStep α} (hact : Keeps Kept act tr)
    (step : ClosingStep) (h : Kept () past sh) :
    Yields Kept () past (step.stations act tr past sh) (step.performWith act sh) := by
  -- a step that calls nobody stops right after it was taken
  have hsingle : ∀ {step : ClosingStep} {sh' : Shell α},
      (Ledger.Valid (step :: past) → Books (step :: past) sh') →
        Yields Kept () past [⟨step :: past, sh'⟩] sh' := by
    intro step sh' h'
    have hkept : Kept () (step :: past) sh' := h'
    exact Yields.concat past hkept (.refl hkept)
  rcases step with step | m
  · cases step with
    | write b value =>
      exact .changeBinding hact ofRecords b (some value) past fun hv =>
        (h hv.1).use trivial (.put sh b (some value))
    | remove b =>
      exact .changeBinding hact ofRecords b none past fun hv => (h hv.1).use trivial (.put sh b none)
    | setConsent s levels =>
      exact .setConsent hact ofRecords s levels (fun _ => h) fun hv => (h hv.1).grant s levels
    | replace c s =>
      exact .replaceStore hact ofRecords c s (fun _ => h) fun ct _ hv =>
        (h hv.1).use trivial (.install sh c ct s)
    | newMemory label => exact hsingle fun hv => (h hv.1).newMemory hv.1 label
    | newStore m config => exact hsingle fun hv => (h hv.1).newStore hv.1 m config
    | newContext s => exact hsingle fun hv => (h hv.1).use trivial (.addContext sh s)
    | close s => exact hsingle fun hv => (h hv.1).closeStore hv.2
    | read b =>
      have hread := Shell.RecordsOnly.read sh b.source b.key b.level
      exact hsingle fun hv => (h hv.1).use trivial
        ((SameBooks.of_recordsOnly hread).trans (.of_recordsOnly (.note _ rfl)))
    | put m key value => exact hsingle fun hv => (h hv.1).use trivial (.putEntry sh m key (some value))
    | take m key => exact hsingle fun hv => (h hv.1).use trivial (.putEntry sh m key none)
    | subscribe b => exact hsingle fun hv => (h hv.1).use trivial (.listen sh b.source _)
    | watch s => exact hsingle fun hv => (h hv.1).use trivial (.watch sh s _ _)
    | unsubscribe n => exact hsingle fun hv => (h hv.1).use trivial (.unsubscribe sh n)
  · exact hsingle fun hv => (h hv.1).closeMedium m

/-- The books are kept at every station of every run. -/
theorem of_mem_stations (course : Course ClosingStep α) {st : Station ClosingStep α}
    (hst : st ∈ course.stations (ClosingStep.conduct α) [] .empty) (hv : Ledger.Valid st.past) :
    Books st.past st.shell := by
  have hkept : Yields Kept () [] (course.stations (ClosingStep.conduct α) [] .empty)
      (course.run (ClosingStep.conduct α) .empty) := by
    refine course.yields (fun step act tr hact i past sh h => ?_) fun _ => empty
    exact yields_step hact step h
  obtain ⟨_, hbooks⟩ := hkept.all st hst
  exact hbooks hv

end Books

end AppShell
