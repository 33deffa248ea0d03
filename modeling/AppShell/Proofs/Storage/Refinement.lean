/-
AppShell/Proofs/Storage/Refinement.lean

The gated stores refine plain maps with a guard.

`Tracks h sh` says that the shell agrees with what the history says: the same
numbers of objects, each store over its medium with the levels granted last,
each context with the store installed last, and each memory with what the last
admitted change of each key left there.  Every valid step keeps it
(`Tracks.perform`), so it holds after every valid history (`tracks_after`).

The main statement is `read_after`: what a reader gets is decided by the
history alone.
-/
import AppShell.Proofs.Storage.Quiet

namespace AppShell

open Shell (quiet SameObjects)

variable {α : Type}

/-! ### Steps that keep the data -/

namespace Shell

/-- The same objects, with the same gates and active stores. -/
structure SameGates (sh sh' : Shell α) : Prop where
  memories : sh'.memories.size = sh.memories.size
  stores : sh'.stores.size = sh.stores.size
  contexts : sh'.contexts.size = sh.contexts.size
  medium : ∀ s : StoreId, sh'.stores[s]?.map Store.medium = sh.stores[s]?.map Store.medium
  consent : ∀ s : StoreId, sh'.stores[s]?.map Store.consent = sh.stores[s]?.map Store.consent
  active : ∀ c : ContextId,
    sh'.contexts[c]?.map StoreContext.active = sh.contexts[c]?.map StoreContext.active

/-- The same gates, active stores and entries. -/
structure SameData (sh sh' : Shell α) : Prop extends SameGates sh sh' where
  entry : ∀ m key, sh'.entry m key = sh.entry m key

variable {sh sh' sh'' : Shell α}

theorem SameGates.trans (h : SameGates sh sh') (h' : SameGates sh' sh'') :
    SameGates sh sh'' where
  memories := h'.memories.trans h.memories
  stores := h'.stores.trans h.stores
  contexts := h'.contexts.trans h.contexts
  medium s := (h'.medium s).trans (h.medium s)
  consent s := (h'.consent s).trans (h.consent s)
  active c := (h'.active c).trans (h.active c)

/-- Only the levels granted to a store decide what it admits. -/
theorem admits_eq (sh : Shell α) (s : StoreId) (level : ConsentLevel) :
    sh.admits s level = ((sh.stores[s]?.map Store.consent).map (·.allows level)).getD false := by
  rw [admits]
  cases sh.stores[s]? <;> rfl

theorem mediumOf_eq_getD (sh : Shell α) (s : StoreId) :
    sh.mediumOf s = (sh.stores[s]?.map Store.medium).getD .web := by
  rw [mediumOf]
  cases sh.stores[s]? <;> rfl

namespace SameGates

/-- The active store of a source is behind the gate too. -/
theorem activeStore (h : SameGates sh sh') (source : StoreSource) :
    sh'.activeStore source = sh.activeStore source := by
  cases source with
  | store s => rfl
  | context c => exact h.active c

theorem admits (h : SameGates sh sh') (s : StoreId) (level : ConsentLevel) :
    sh'.admits s level = sh.admits s level := by
  rw [admits_eq, admits_eq, h.consent]

theorem mediumOf (h : SameGates sh sh') (s : StoreId) : sh'.mediumOf s = sh.mediumOf s := by
  rw [mediumOf_eq_getD, mediumOf_eq_getD, h.medium]

/-- Where the gates are the same, a binding is admitted to the same store. -/
theorem admitted (h : SameGates sh sh') (b : Binding) : sh'.admitted b = sh.admitted b := by
  simp only [Shell.admitted, h.activeStore, h.admits]

end SameGates

/-- An access to a medium leaves every gate as it is. -/
theorem sameGates_putEntry (sh : Shell α) (m : Medium) (key : String) (value : Option String) :
    SameGates sh (sh.putEntry m key value) where
  memories := size_memories_putEntry sh m key value
  stores := by rw [putEntry_frame]
  contexts := by rw [putEntry_frame]
  medium s := by rw [putEntry_frame]
  consent s := by rw [putEntry_frame]
  active c := by rw [putEntry_frame]

namespace SameData

theorem trans (h : SameData sh sh') (h' : SameData sh' sh'') : SameData sh sh'' where
  toSameGates := h.toSameGates.trans h'.toSameGates
  entry m key := (h'.entry m key).trans (h.entry m key)

/-- Shells with the same memories, stores and contexts hold the same data. -/
theorem of_fields (hm : sh'.memories = sh.memories) (hs : sh'.stores = sh.stores)
    (hc : sh'.contexts = sh.contexts) : SameData sh sh' where
  memories := by rw [hm]
  stores := by rw [hs]
  contexts := by rw [hc]
  medium s := by rw [hs]
  consent s := by rw [hs]
  active c := by rw [hc]
  entry m key := by
    cases m with
    | web => rfl
    | memory i => simp only [Shell.entry, hm]

theorem refl (sh : Shell α) : SameData sh sh := .of_fields rfl rfl rfl

theorem of_sameObjects (h : SameObjects sh sh') : SameData sh sh' :=
  .of_fields h.memories h.stores h.contexts

/-- The same data read the same under every key. -/
theorem valueOf (h : SameData sh sh') (source : StoreSource) (key : String)
    (level : ConsentLevel) : sh'.valueOf source key level = sh.valueOf source key level := by
  simp only [valueOf_eq, h.admitted, h.mediumOf, h.entry]

/-- A change of stores that keeps their gates keeps the data. -/
theorem modify_stores (sh : Shell α) (s : StoreId) {f : Store → Store}
    (hm : ∀ st, (f st).medium = st.medium) (hc : ∀ st, (f st).consent = st.consent) :
    SameData sh { sh with stores := sh.stores.modify s f } where
  memories := rfl
  stores := Array.size_modify
  contexts := rfl
  medium t := map_getElem?_modify sh.stores s hm t
  consent t := map_getElem?_modify sh.stores s hc t
  active _ := rfl
  entry m _ := by cases m <;> rfl

/-- A change of contexts that keeps their active stores keeps the data. -/
theorem modify_contexts (sh : Shell α) (c : ContextId) {f : StoreContext → StoreContext}
    (ha : ∀ ct, (f ct).active = ct.active) :
    SameData sh { sh with contexts := sh.contexts.modify c f } where
  memories := rfl
  stores := rfl
  contexts := Array.size_modify
  medium _ := rfl
  consent _ := rfl
  active d := map_getElem?_modify sh.contexts c ha d
  entry m _ := by cases m <;> rfl

end SameData

/-- Who is subscribed makes no difference to the data. -/
theorem sameData_addSubscription (sh : Shell α) (table : ListenerTable) (number : Nat) :
    SameData sh (sh.addSubscription table number).2 :=
  .of_fields rfl rfl rfl

/-- An observer of a store is none of its data. -/
theorem sameData_attachObserver (sh : Shell α) (s : StoreId) (o : StoreObserver) :
    SameData sh (sh.attachObserver s o).2 := by
  unfold attachObserver
  split
  · exact .refl sh
  · exact .modify_stores sh s (fun _ => rfl) fun _ => rfl

/-- Listeners come and go without touching the data. -/
theorem sameData_detach (sh : Shell α) (table : ListenerTable) (number : Nat) :
    SameData sh (sh.detach table number) := by
  cases table with
  | keyed s => exact .modify_stores sh s (fun _ => rfl) fun _ => rfl
  | observers s => exact .modify_stores sh s (fun _ => rfl) fun _ => rfl
  | context c => exact .modify_contexts sh c fun _ => rfl
  | queue q => exact .of_fields rfl rfl rfl
  | panel p => exact .of_fields rfl rfl rfl

/-- A subscription that ends takes no data with it. -/
theorem sameData_unsubscribe (sh : Shell α) (n : SubscriptionId) :
    SameData sh (sh.unsubscribe n) := by
  rcases e : sh.subscriptions[n]? with - | sub
  · simp only [unsubscribe, e]
    exact .refl sh
  · simp only [unsubscribe, e]
    split
    · exact (sameData_detach sh sub.table sub.number).trans (.of_fields rfl rfl rfl)
    · exact .refl sh

theorem sameData_listen (sh : Shell α) (source : StoreSource) (l : KeyListener) :
    SameData sh (sh.listen source l).2 := by
  unfold listen
  split
  · split
    · exact sameData_addSubscription sh _ _
    · refine .trans ?_ (sameData_addSubscription _ _ _)
      exact .modify_stores sh _ (fun _ => rfl) fun _ => rfl
  · split
    · exact sameData_addSubscription sh _ _
    · refine .trans ?_ (sameData_addSubscription _ _ _)
      exact .modify_contexts sh _ fun _ => rfl

theorem sameData_watch (sh : Shell α) (s : StoreId) (label : String) (callback : CallbackId) :
    SameData sh (sh.watch s label callback).2 :=
  (sameData_attachObserver sh s _).trans (sameData_addSubscription _ _ _)

/-- A medium that is closed keeps its entries. -/
theorem sameData_mediumClose (sh : Shell α) (m : Medium) : SameData sh (sh.mediumClose m) := by
  unfold mediumClose
  split
  · exact .refl sh
  · split
    · exact .refl sh
    · refine ⟨⟨Array.size_modify, rfl, rfl, fun _ => rfl, fun _ => rfl, fun _ => rfl⟩, ?_⟩
      intro m key
      cases m with
      | web => rfl
      | memory j =>
        simp only [entry, note, Array.getElem?_modify]
        split
        · rw [Option.bind_map]
          rfl
        · rfl

/-- A store that is closed keeps its level of consent and its medium. -/
theorem sameData_closeStore (sh : Shell α) (s : StoreId) : SameData sh (sh.closeStore s) := by
  unfold closeStore
  split
  · exact .refl sh
  · split
    · exact .refl sh
    · have hclosed := SameData.modify_stores sh s (f := fun st => { st with closed := true })
        (fun _ => rfl) fun _ => rfl
      split
      · exact hclosed
      · exact hclosed.trans (sameData_mediumClose _ _)

end Shell

/-! ### The shell agrees with the history -/

/-- The shell agrees with what a history says. -/
structure Tracks (h : History) (sh : Shell α) : Prop where
  memories : sh.memories.size = h.memories
  stores : sh.stores.size = h.stores
  contexts : sh.contexts.size = h.contexts
  medium : ∀ s : StoreId, sh.stores[s]?.map Store.medium = h.mediumOf s
  there : ∀ s m, h.mediumOf s = some m → h.HasMedium m
  consent : ∀ (s : StoreId) st level, sh.stores[s]? = some st →
    st.consent.allows level = h.permits s level
  active : ∀ c : ContextId, sh.contexts[c]?.map StoreContext.active = h.installed c
  inside : ∀ c s, h.installed c = some s → s < h.stores
  entry : ∀ i key, sh.entry (.memory i) key = h.entry i key

namespace Tracks

variable {h : History} {sh sh' : Shell α}

/-- The levels that the stores grant depend on their sets of levels alone. -/
theorem consent_of_sameGates (ht : Tracks h sh) (hg : sh.SameGates sh') {s : StoreId} {st : Store}
    (hs : sh'.stores[s]? = some st) (level : ConsentLevel) :
    st.consent.allows level = h.permits s level := by
  have hc := hg.consent s
  rw [hs, Option.map_some] at hc
  obtain ⟨old, hold, he⟩ := Option.map_eq_some_iff.1 hc.symm
  rw [← he]
  exact ht.consent s old level hold

/-- A history is told by the data alone. -/
theorem of_sameData (ht : Tracks h sh) (hd : sh.SameData sh') : Tracks h sh' where
  memories := hd.memories.trans ht.memories
  stores := hd.stores.trans ht.stores
  contexts := hd.contexts.trans ht.contexts
  medium s := (hd.medium s).trans (ht.medium s)
  there := ht.there
  consent _ _ level hs := ht.consent_of_sameGates hd.toSameGates hs level
  active c := (hd.active c).trans (ht.active c)
  inside := ht.inside
  entry i key := (hd.entry _ key).trans (ht.entry i key)

theorem of_sameObjects (ht : Tracks h sh) (ho : SameObjects sh sh') : Tracks h sh' :=
  ht.of_sameData (.of_sameObjects ho)

theorem empty : Tracks [] (Shell.empty : Shell α) where
  memories := rfl
  stores := rfl
  contexts := rfl
  medium _ := rfl
  there _ _ hm := by cases hm
  consent _ _ _ hs := by cases hs
  active _ := rfl
  inside _ _ hi := by cases hi
  entry _ _ := rfl

/-- The active store of a source is the one that was installed last. -/
theorem activeStore (ht : Tracks h sh) (source : StoreSource) :
    sh.activeStore source = h.target source := by
  cases source with
  | store s => rfl
  | context c => exact ht.active c

/-- The stores that a history made are there. -/
theorem exists_store (ht : Tracks h sh) {s : StoreId} (hs : s < h.stores) :
    ∃ st, sh.stores[s]? = some st :=
  ⟨_, Array.getElem?_eq_getElem (ht.stores.symm ▸ hs)⟩

theorem exists_context (ht : Tracks h sh) {c : ContextId} (hc : c < h.contexts) :
    ∃ ct, sh.contexts[c]? = some ct :=
  ⟨_, Array.getElem?_eq_getElem (ht.contexts.symm ▸ hc)⟩

theorem lt_stores (ht : Tracks h sh) {b : Binding} (hb : h.HasSource b.source) {s : StoreId}
    (hs : h.target b.source = some s) : s < h.stores := by
  rcases b with ⟨s' | c, key, level⟩
  · cases hs
    exact hb
  · exact ht.inside c s hs

/-- The gate of the shell is the guard of the history. -/
theorem admitted (ht : Tracks h sh) {b : Binding} (hb : h.HasSource b.source) :
    sh.admitted b = h.admitted b := by
  rcases e : h.target b.source with - | s
  · simp [Shell.admitted, History.admitted, ht.activeStore, e]
  · obtain ⟨st, hst⟩ := ht.exists_store (ht.lt_stores hb e)
    simp [Shell.admitted, History.admitted, ht.activeStore, e, Shell.admits, hst,
      ht.consent s st b.level hst, Option.filter_some]

/-- Every store lies over the medium that it was made with. -/
theorem mediumOf (ht : Tracks h sh) {s : StoreId} (hs : s < h.stores) :
    h.mediumOf s = some (sh.mediumOf s) := by
  obtain ⟨st, hst⟩ := ht.exists_store hs
  rw [← ht.medium s, hst, Shell.mediumOf_eq hst]
  rfl

/-- What is admitted goes to the medium that the history names. -/
theorem mediumOf_admitted (ht : Tracks h sh) {b : Binding} (hb : h.HasSource b.source)
    {s : StoreId} (hs : h.admitted b = some s) : h.mediumOf s = some (sh.mediumOf s) :=
  ht.mediumOf (ht.lt_stores hb (Option.filter_eq_some_iff.1 hs).1)

end Tracks

/-! ### Every step keeps the agreement -/

/-- An access or a listener: no object is made, granted to or replaced. -/
def StorageStep.IsUse : StorageStep → Prop
  | .newMemory _ | .newStore _ _ | .newContext _ | .setConsent _ _ | .replace _ _ => False
  | _ => True

namespace Tracks

variable {past : History} {s : StorageStep} {sh sh' : Shell α}

/-- A use keeps the agreement if it leaves the entries that the history says. -/
theorem use (hs : s.IsUse) (ht : Tracks past sh) (hg : sh.SameGates sh')
    (he : ∀ i key, sh'.entry (.memory i) key = History.entry (s :: past) i key) :
    Tracks (s :: past) sh' := by
  have hc : ∀ (t : StoreId) (st : Store) level, sh'.stores[t]? = some st →
      st.consent.allows level = past.permits t level :=
    fun _ _ level hst => ht.consent_of_sameGates hg hst level
  -- every use leaves the numbers, mediums, grants and contexts of the history alone
  cases s <;> first
    | exact hs.elim
    | exact
      { memories := hg.memories.trans ht.memories
        stores := hg.stores.trans ht.stores
        contexts := hg.contexts.trans ht.contexts
        medium := fun t => (hg.medium t).trans (ht.medium t)
        there := ht.there
        consent := hc
        active := fun c => (hg.active c).trans (ht.active c)
        inside := ht.inside
        entry := he }

/-- A use that the history takes for no change keeps the agreement if it changes no data. -/
theorem idle (hs : s.IsUse) (hc : past.change? s = none) (ht : Tracks past sh)
    (hd : sh.SameData sh') : Tracks (s :: past) sh' := by
  refine ht.use hs hd.toSameGates fun i key => ?_
  rw [hd.entry, ht.entry, History.entry, hc]

/-- A use that changes an entry keeps the agreement. -/
theorem changed {m : Medium} {key : String} {value : Option String}
    (hc : past.change? s = some (m, key, value)) (hs : s.IsUse) (hm : past.HasMedium m)
    (ht : Tracks past sh) :
    Tracks (s :: past) (sh.putEntry m key value) := by
  refine ht.use hs (Shell.sameGates_putEntry sh m key value) fun i key' => ?_
  have hsize : ∀ j, m = .memory j → j < sh.memories.size := by
    rintro j rfl
    rw [ht.memories]
    exact hm
  rw [Shell.entry_putEntry sh hsize, ht.entry, History.entry, hc]

/-- A write or a removal through a binding keeps the agreement, let through or not. -/
theorem access {b : Binding} {value : Option String}
    (hc : past.change? s = (past.reached b).map fun m => (m, b.key, value)) (hs : s.IsUse)
    (hr : past.HasSource b.source) (ht : Tracks past sh) :
    Tracks (s :: past) (Shell.changeBinding quiet b value sh) := by
  rw [Shell.changeBinding_eq, ht.admitted hr]
  rcases e : past.admitted b with - | t
  · have hreached : past.reached b = none := by rw [History.reached, e, Option.bind_none]
    rw [hreached, Option.map_none] at hc
    exact ht.idle hs hc (.refl sh)
  · -- the store that lets it through is there, and so is its medium
    have hm := ht.mediumOf_admitted hr e
    have hreached : past.reached b = some (sh.mediumOf t) := by
      rw [History.reached, e, Option.bind_some, hm]
    rw [hreached, Option.map_some] at hc
    exact (ht.changed hc hs (ht.there t _ hm)).of_sameObjects (Shell.sameObjects_announce t _ _)

/-- A new memory is empty, and the history has left nothing in it. -/
theorem newMemory (label : String) (ht : Tracks past sh) :
    Tracks (.newMemory label :: past) ((StorageStep.newMemory label).perform sh) where
  memories := by
    show (sh.memories.push _).size = past.memories + 1
    rw [Array.size_push, ht.memories]
  stores := ht.stores
  contexts := ht.contexts
  medium := ht.medium
  there t m hm := by
    have := ht.there t m hm
    cases m with
    | web => trivial
    | memory i => exact Nat.lt_succ_of_lt this
  consent := ht.consent
  active := ht.active
  inside := ht.inside
  entry i key := by
    show ((sh.memories.push _)[i]?.bind fun mem => mem.get? key) = past.entry i key
    rw [← ht.entry, Array.getElem?_push]
    split
    · -- a new memory is empty, and nothing was there before
      rename_i hi
      subst hi
      simp [Shell.entry, Memory.get?, Memory.empty]
    · rfl

/-- A new store admits what it was configured to grant. -/
theorem newStore {m : Medium} (config : StoreConfig) (hm : past.HasMedium m)
    (ht : Tracks past sh) :
    Tracks (.newStore m config :: past) ((StorageStep.newStore m config).perform sh) where
  memories := ht.memories
  stores := by
    show (sh.stores.push _).size = past.stores + 1
    rw [Array.size_push, ht.stores]
  contexts := ht.contexts
  medium t := by
    show (sh.stores.push _)[t]?.map Store.medium = if t = past.stores then some m else past.mediumOf t
    rw [Array.getElem?_push, ht.stores]
    split
    · rfl
    · exact ht.medium t
  there t m' hm' := by
    by_cases ht' : t = past.stores
    · simp only [History.mediumOf, ht', if_true] at hm'
      cases hm'
      exact hm
    · simp only [History.mediumOf, ht', if_false] at hm'
      exact ht.there t m' hm'
  consent t st level hst := by
    change (sh.stores.push _)[t]? = some st at hst
    rw [Array.getElem?_push, ht.stores] at hst
    by_cases ht' : t = past.stores
    · rw [if_pos ht'] at hst
      cases hst
      -- a new store grants no level, and the history no level of it either
      cases level <;> simp [History.permits, History.granted, ht', Store.new, ConsentSet.allows,
        ConsentSet.empty, ConsentSet.contains]
    · rw [if_neg ht'] at hst
      rw [ht.consent t st level hst]
      simp [History.permits, History.granted, ht']
  active := ht.active
  inside c t hi := Nat.lt_succ_of_lt (ht.inside c t hi)
  entry := ht.entry

/-- The store that a new context was made with is the one installed in it. -/
theorem newContext {t : StoreId} (hs : t < past.stores) (ht : Tracks past sh) :
    Tracks (.newContext t :: past) ((StorageStep.newContext t).perform sh) := by
  have hd := Shell.sameData_attachObserver sh t (.relay sh.contexts.size)
  have ha := ht.of_sameData hd
  refine
    { memories := ha.memories
      stores := ha.stores
      contexts := ?_
      medium := ha.medium
      there := ht.there
      consent := ha.consent
      active := ?_
      inside := ?_
      entry := ha.entry }
  · show ((sh.attachObserver t (.relay sh.contexts.size)).2.contexts.push _).size
      = past.contexts + 1
    rw [Array.size_push, ha.contexts]
  · intro c
    show ((sh.attachObserver t (.relay sh.contexts.size)).2.contexts.push _)[c]?.map
      StoreContext.active = if c = past.contexts then some t else past.installed c
    rw [Array.getElem?_push, ha.contexts]
    split
    · rfl
    · exact ha.active c
  · intro c t' hi
    by_cases hc : c = past.contexts
    · simp only [History.installed, hc, if_true] at hi
      cases hi
      exact hs
    · simp only [History.installed, hc, if_false] at hi
      exact ht.inside c t' hi

/-- Of two grants to a store the last one counts. -/
theorem setConsent {t : StoreId} {levels : List ConsentLevel} (ht : Tracks past sh) :
    Tracks (.setConsent t levels :: past)
      { sh with
        stores := sh.stores.modify t fun st => { st with consent := .ofList levels } } where
  memories := ht.memories
  stores := Array.size_modify.trans ht.stores
  contexts := ht.contexts
  medium u := by
    show _ = past.mediumOf u
    rw [← ht.medium u]
    refine Shell.map_getElem?_modify sh.stores t ?_ u
    intro st
    rfl
  there := ht.there
  consent u st level hst := by
    change (sh.stores.modify t _)[u]? = some st at hst
    rw [Array.getElem?_modify] at hst
    by_cases hu : t = u
    · subst hu
      rw [if_pos rfl] at hst
      obtain ⟨old, -, rfl⟩ := Option.map_eq_some_iff.1 hst
      -- the levels granted last count, whatever was granted before
      simp [History.permits, History.granted, ConsentSet.allows]
    · rw [if_neg hu] at hst
      rw [ht.consent u st level hst]
      simp [History.permits, History.granted, Ne.symm hu]
  active := ht.active
  inside := ht.inside
  entry := ht.entry

/-- Of two replacements in a context the last one counts. -/
theorem replace {c : ContextId} {t : StoreId} {number : Nat} (hc : c < past.contexts)
    (hs : t < past.stores) (ht : Tracks past sh) :
    Tracks (.replace c t :: past)
      { sh with
        contexts := sh.contexts.modify c fun ct => { ct with active := t, relay := number } } where
  memories := ht.memories
  stores := ht.stores
  contexts := Array.size_modify.trans ht.contexts
  medium := ht.medium
  there := ht.there
  consent := ht.consent
  active d := by
    show (sh.contexts.modify c _)[d]?.map StoreContext.active
      = if d = c then some t else past.installed d
    rw [Array.getElem?_modify]
    by_cases hd : c = d
    · subst hd
      rw [if_pos rfl, if_pos rfl, Option.map_map, Array.getElem?_eq_getElem (ht.contexts.symm ▸ hc)]
      rfl
    · rw [if_neg hd, if_neg (Ne.symm hd)]
      exact ht.active d
  inside d u hi := by
    by_cases hd : d = c
    · simp only [History.installed, hd, if_true] at hi
      cases hi
      exact hs
    · simp only [History.installed, hd, if_false] at hi
      exact ht.inside d u hi
  entry := ht.entry

/-- A valid step keeps the agreement. -/
theorem perform (hr : past.Refers s) (ht : Tracks past sh) : Tracks (s :: past) (s.perform sh) := by
  cases s with
  | newMemory label => exact ht.newMemory label
  | newStore m config => exact ht.newStore config hr
  | newContext t => exact ht.newContext hr
  | read b =>
    have hread := Shell.sameObjects_read sh b.source b.key b.level
    exact ht.idle trivial rfl (.of_sameObjects (hread.trans (.note _ _)))
  | write b value =>
    have hchange : past.change? (.write b value)
        = (past.reached b).map fun m => (m, b.key, some value) := rfl
    exact ht.access hchange trivial hr
  | remove b =>
    have hchange : past.change? (.remove b)
        = (past.reached b).map fun m => (m, b.key, none) := rfl
    exact ht.access hchange trivial hr
  | setConsent t levels =>
    obtain ⟨st, hst⟩ := ht.exists_store hr
    simp only [StorageStep.perform, Shell.setConsent, hst]
    split
    · exact ht.setConsent
    · exact ht.setConsent.of_sameObjects (Shell.sameObjects_announce t _ _)
  | replace c t =>
    -- the new relay, the new store and the end of the old relay touch no entry, and so do the
    -- listeners that are told
    obtain ⟨ct, hct⟩ := ht.exists_context hr.1
    rw [StorageStep.perform, Shell.replaceStore_eq quiet hct]
    have hattach := ht.of_sameData (Shell.sameData_attachObserver sh t (.relay c))
    have hinstall : Tracks (.replace c t :: past) (sh.install c ct t) :=
      (hattach.replace hr.1 hr.2).of_sameData (Shell.sameData_detach _ (.observers ct.active) _)
    exact hinstall.of_sameObjects (Shell.sameObjects_tell _ _ _)
  | close t => exact ht.idle trivial rfl (Shell.sameData_closeStore sh t)
  | put m key value =>
    have hchange : past.change? (.put m key value) = some (m, key, some value) := rfl
    exact ht.changed hchange trivial hr
  | take m key =>
    have hchange : past.change? (.take m key) = some (m, key, none) := rfl
    exact ht.changed hchange trivial hr
  | subscribe b => exact ht.idle trivial rfl (Shell.sameData_listen sh _ _)
  | watch t => exact ht.idle trivial rfl (Shell.sameData_watch sh t _ _)
  | unsubscribe n => exact ht.idle trivial rfl (Shell.sameData_unsubscribe sh n)

end Tracks

/-- After a valid history the shell agrees with it. -/
theorem tracks_after {h : History} (hv : h.Valid) : Tracks h (h.after α) := by
  induction h with
  | nil => exact Tracks.empty
  | cons s past ih => exact (ih hv.1).perform hv.2

/-! ### What is read -/

namespace Tracks

variable {h : History} {sh : Shell α}

/-- A medium holds under each key what the last admitted change left there. -/
theorem held (ht : Tracks h sh) (m : Medium) (key : String) : sh.entry m key = h.held m key := by
  cases m with
  | web => rfl
  | memory i => exact ht.entry i key

/-- A store reads what its medium holds, if the level is granted there. -/
theorem valueOf_store (ht : Tracks h sh) {s : StoreId} (hs : s < h.stores) {m : Medium}
    (hm : h.mediumOf s = some m) (key : String) (level : ConsentLevel) :
    sh.valueOf (.store s) key level = if h.permits s level then h.held m key else none := by
  have hsource : h.HasSource (.store s) := hs
  have hmedium : sh.mediumOf s = m := Option.some.inj ((ht.mediumOf hs).symm.trans hm)
  rw [Shell.valueOf_eq, ht.admitted (b := ⟨.store s, key, level⟩) hsource]
  by_cases hp : h.permits s level = true
  · simp [History.admitted, History.target, hp, hmedium, ht.held, Option.filter_some]
  · simp [History.admitted, History.target, hp, Option.filter_some]

/-- An access through a context is an access to the store installed last. -/
theorem activeStore_installed (ht : Tracks h sh) {c : ContextId} {s : StoreId}
    (hi : h.installed c = some s) :
    sh.activeStore (.context c) = sh.activeStore (.store s) := by
  rw [ht.activeStore, ht.activeStore]
  exact hi

/-- In every context of a valid history a store is installed that is there. -/
theorem exists_installed (ht : Tracks h sh) {c : ContextId} (hc : c < h.contexts) :
    ∃ s, s < h.stores ∧ h.installed c = some s := by
  obtain ⟨ct, hct⟩ := ht.exists_context hc
  have hi : h.installed c = some ct.active := by rw [← ht.active c, hct]; rfl
  exact ⟨ct.active, ht.inside c _ hi, hi⟩

end Tracks

/-- After every valid history, a store reads what the last admitted change left in its medium, and
nothing without a grant; a context acts as the store installed last in it; and a binding acts as
its source. -/
theorem read_after (α : Type) {h : History} (hv : h.Valid) :
    (∀ s, s < h.stores → ∃ m, h.mediumOf s = some m ∧ ∀ key level,
      ((h.after α).read (.store s) key level).1 =
        if h.permits s level then h.held m key else none) ∧
    (∀ c, c < h.contexts → ∃ s, s < h.stores ∧ h.installed c = some s ∧ ∀ key level,
      (h.after α).read (.context c) key level = (h.after α).read (.store s) key level ∧
      ∀ act : Shell.Act α,
        (∀ value, Shell.write act (.context c) key level value (h.after α) =
          Shell.write act (.store s) key level value (h.after α)) ∧
        Shell.remove act (.context c) key level (h.after α) =
          Shell.remove act (.store s) key level (h.after α)) ∧
    ∀ b : Binding,
      (h.after α).bindingValue b = (h.after α).read b.source b.key b.level ∧
      ∀ act : Shell.Act α,
        (∀ value, Shell.setBinding act b value (h.after α) =
          Shell.write act b.source b.key b.level value (h.after α)) ∧
        Shell.clearBinding act b (h.after α) =
          Shell.remove act b.source b.key b.level (h.after α) := by
  have ht : Tracks h (h.after α) := tracks_after hv
  refine ⟨?stores, ?contexts, fun b => ⟨rfl, fun act => ⟨fun value => rfl, rfl⟩⟩⟩
  case stores =>
    intro s hs
    refine ⟨_, ht.mediumOf hs, fun key level => ?_⟩
    exact ht.valueOf_store hs (ht.mediumOf hs) key level
  case contexts =>
    intro c hc
    obtain ⟨s, hs, hi⟩ := ht.exists_installed hc
    have ha := ht.activeStore_installed hi
    refine ⟨s, hs, hi, fun key level => ⟨?_, fun act => ⟨fun value => ?_, ?_⟩⟩⟩
    · rw [Shell.read, Shell.read, ha]
    · rw [Shell.write, Shell.write, ha]
    · rw [Shell.remove, Shell.remove, ha]

/-- Two stores over one memory: what was written through a context is read by both, and what was
denied is not. -/
def sharedMemoryRun : History :=
  [ .write ⟨.store 0, "k", .functionality⟩ "denied",
    .write ⟨.context 0, "k", .functionality⟩ "written",
    .setConsent 1 [.functionality],
    .replace 0 1,
    .newContext 0,
    .newStore (.memory 0) ⟨false, false⟩,
    .newStore (.memory 0) ⟨false, false⟩,
    .newMemory "shared" ]

/-- Two stores over one memory: what one of them writes the other reads, as far as each one admits.
-/
theorem read_after_sharedMemoryRun :
    ((sharedMemoryRun.after Unit).read (.store 0) "k" .strictlyNecessary).1 = some "written" ∧
    ((sharedMemoryRun.after Unit).read (.store 0) "k" .functionality).1 = none ∧
    ((sharedMemoryRun.after Unit).read (.store 1) "k" .functionality).1 = some "written" := by
  obtain ⟨hstores, -, -⟩ := read_after Unit (h := sharedMemoryRun) (by decide)
  obtain ⟨m, hm, h0⟩ := hstores 0 (by decide)
  obtain ⟨m', hm', h1⟩ := hstores 1 (by decide)
  cases hm
  cases hm'
  refine ⟨?_, ?_, ?_⟩
  · rw [h0]
    decide
  · rw [h0]
    decide
  · rw [h1]
    decide

end AppShell
