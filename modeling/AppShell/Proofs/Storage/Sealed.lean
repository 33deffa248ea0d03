/-
AppShell/Proofs/Storage/Sealed.lean

Keys that only denied levels may touch.

Let `D` be a set of levels without the strictly necessary one.  A key of a
memory is sealed if no store over that memory grants a level of `D` and all who
listen to the key do so at levels of `D` (`Sealed`).  A step spares the key if
it grants no level of `D`, touches the key at levels of `D` only, and does not
change the entry directly (`StorageStep.Spares`).

`Seals` says what such a step may do: entries and mediums stay, and neither a
new grant nor a new listener breaks the seal.  Every sparing step, and so every
sparing run, keeps the seal and the entry (`Sealed.seals_replay`).
-/
import AppShell.Proofs.Storage.Refinement
import AppShell.Proofs.Storage.Tables

namespace AppShell

open Shell (quiet SameObjects SameData)

variable {α : Type} {D : ConsentLevel → Prop} {m : MemoryId} {key : String}

/-- No store over a memory grants a level of `D`, and a key is listened to at levels of `D` only. -/
structure Sealed (D : ConsentLevel → Prop) (m : MemoryId) (key : String) (sh : Shell α) :
    Prop where
  there : m < sh.memories.size
  denies : ∀ (s : StoreId) st, sh.stores[s]? = some st → st.medium = .memory m →
    ∀ l, D l → st.consent.allows l = false
  listeners : ∀ source t, sh.keyedOf source = some t →
    ∀ l ∈ t.snapshot, l.key = key → D l.level

/-- A step grants no level of `D`, touches a key at levels of `D` only, and does not change the
entry of the key in a memory directly. -/
def StorageStep.Spares (D : ConsentLevel → Prop) (m : MemoryId) (key : String) :
    StorageStep → Prop
  | .read b | .write b _ | .remove b | .subscribe b => b.key = key → D b.level
  | .setConsent _ levels => ∀ l ∈ levels, ¬ D l
  | .put medium other _ | .take medium other => medium = .memory m → other ≠ key
  | _ => True

/-! ### What a sparing step may do -/

/-- Entry and mediums stay, a new grant has no level of `D`, and a new listener to the key listens
at a level of `D`. -/
structure Seals (D : ConsentLevel → Prop) (m : MemoryId) (key : String) (sh sh' : Shell α) :
    Prop where
  memories : sh.memories.size ≤ sh'.memories.size
  entry : sh'.entry (.memory m) key = sh.entry (.memory m) key
  medium : ∀ (s : StoreId) medium, sh.stores[s]?.map Store.medium = some medium →
    sh'.stores[s]?.map Store.medium = some medium
  consent : ∀ (s : StoreId) st', sh'.stores[s]? = some st' →
    (∃ st, sh.stores[s]? = some st ∧ st.medium = st'.medium ∧ st.consent = st'.consent) ∨
      ∀ l, D l → st'.consent.allows l = false
  listeners : ∀ source t', sh'.keyedOf source = some t' → ∀ l ∈ t'.snapshot,
    (∃ t, sh.keyedOf source = some t ∧ l ∈ t.snapshot) ∨ (l.key = key → D l.level)

/-- A sparing step leaves a sealed entry sealed. -/
theorem Sealed.of_seals {sh sh' : Shell α} (hs : Sealed D m key sh) (h : Seals D m key sh sh') :
    Sealed D m key sh' where
  there := Nat.lt_of_lt_of_le hs.there h.memories
  denies s st' hst' hm l hl := by
    rcases h.consent s st' hst' with ⟨st, hst, hmedium, hconsent⟩ | hdeny
    · rw [← hconsent]
      exact hs.denies s st hst (hmedium.trans hm) l hl
    · exact hdeny l hl
  listeners source t' ht' l hl hkey := by
    rcases h.listeners source t' ht' l hl with ⟨t, ht, hmem⟩ | hnew
    · exact hs.listeners source t ht l hmem hkey
    · exact hnew hkey

namespace Seals

variable {sh sh' sh'' : Shell α}

/-- What two sparing steps do, one after the other, a sparing step may do. -/
theorem trans (h : Seals D m key sh sh') (h' : Seals D m key sh' sh'') : Seals D m key sh sh'' where
  memories := Nat.le_trans h.memories h'.memories
  entry := h'.entry.trans h.entry
  medium s medium hs := h'.medium s medium (h.medium s medium hs)
  consent s st'' hst'' := by
    rcases h'.consent s st'' hst'' with ⟨st', hst', hm', hc'⟩ | hdeny
    · rcases h.consent s st' hst' with ⟨st, hst, hm, hc⟩ | hdeny
      · exact .inl ⟨st, hst, hm.trans hm', hc.trans hc'⟩
      · exact .inr fun l hl => hc' ▸ hdeny l hl
    · exact .inr hdeny
  listeners source t'' ht'' l hl := by
    rcases h'.listeners source t'' ht'' l hl with ⟨t', ht', hmem⟩ | hnew
    · exact h.listeners source t' ht' l hmem
    · exact .inr hnew

/-- Stores whose mediums and grants are the same. -/
theorem of_maps (hmem : sh.memories.size ≤ sh'.memories.size)
    (hentry : sh'.entry (.memory m) key = sh.entry (.memory m) key)
    (hm : ∀ s : StoreId, sh'.stores[s]?.map Store.medium = sh.stores[s]?.map Store.medium)
    (hc : ∀ s : StoreId, sh'.stores[s]?.map Store.consent = sh.stores[s]?.map Store.consent)
    (hk : ∀ source t', sh'.keyedOf source = some t' → ∀ l ∈ t'.snapshot,
      (∃ t, sh.keyedOf source = some t ∧ l ∈ t.snapshot) ∨ (l.key = key → D l.level)) :
    Seals D m key sh sh' where
  memories := hmem
  entry := hentry
  medium s medium hs := (hm s).trans hs
  consent s st' hst' := by
    have hm' := hm s
    have hc' := hc s
    rw [hst', Option.map_some] at hm' hc'
    obtain ⟨st, hst, hmedium⟩ := Option.map_eq_some_iff.1 hm'.symm
    rw [hst, Option.map_some] at hc'
    exact .inl ⟨st, hst, hmedium, (Option.some.inj hc').symm⟩
  listeners := hk

/-- The same data, with no new listeners. -/
theorem of_sameData (h : SameData sh sh')
    (hk : ∀ source t', sh'.keyedOf source = some t' → ∀ l ∈ t'.snapshot,
      (∃ t, sh.keyedOf source = some t ∧ l ∈ t.snapshot) ∨ (l.key = key → D l.level)) :
    Seals D m key sh sh' :=
  .of_maps (Nat.le_of_eq h.memories.symm) (h.entry _ _) h.medium h.consent hk

/-- A step that changes neither data nor listeners spares everything. -/
theorem of_sameData_keyed (h : SameData sh sh')
    (hk : ∀ source, sh'.keyedOf source = sh.keyedOf source) : Seals D m key sh sh' :=
  .of_sameData h fun source t' ht' _ hl => .inl ⟨t', (hk source).symm.trans ht', hl⟩

theorem of_sameObjects (h : SameObjects sh sh') : Seals D m key sh sh' :=
  .of_sameData_keyed (.of_sameObjects h) (Shell.SameTables.of_sameObjects h).keyed

theorem refl (sh : Shell α) : Seals D m key sh sh := .of_sameObjects (.refl sh)

/-- A change of an entry, unless it is the sealed one. -/
theorem putEntry (sh : Shell α) {medium : Medium} {other : String}
    (h : medium = .memory m → other ≠ key) (value : Option String) :
    Seals D m key sh (sh.putEntry medium other value) := by
  have hgates := Shell.sameGates_putEntry sh medium other value
  have htables := Shell.sameTables_putEntry sh medium other value
  refine .of_maps (Nat.le_of_eq hgates.memories.symm) ?_ hgates.medium hgates.consent ?_
  · exact Shell.entry_putEntry_of_ne sh h value
  · exact fun source t' ht' _ hl => .inl ⟨t', (htables.keyed source).symm.trans ht', hl⟩

/-- A new memory lies beside the one that is sealed. -/
theorem newMemory (sh : Shell α) (label : String) (hm : m < sh.memories.size) :
    Seals D m key sh ((StorageStep.newMemory label).perform sh) := by
  refine .of_maps ?_ ?_ (fun _ => rfl) (fun _ => rfl) fun source t' ht' _ hl => .inl ⟨t', ?_, hl⟩
  · show sh.memories.size ≤ (sh.memories.push _).size
    rw [Array.size_push]
    exact Nat.le_succ _
  · show (sh.memories.push _)[m]?.bind _ = _
    rw [Array.getElem?_push, if_neg (Nat.ne_of_lt hm)]
    rfl
  · cases source <;> exact ht'

/-- A new store grants only what is strictly necessary, and no one listens to it. -/
theorem newStore (hD : ¬ D .strictlyNecessary) (sh : Shell α) (medium : Medium)
    (config : StoreConfig) : Seals D m key sh (sh.addStore (.new medium config)).2 where
  memories := Nat.le_refl _
  entry := rfl
  medium s md hs := by
    show (sh.stores.push _)[s]?.map Store.medium = some md
    obtain ⟨st, hst, hm⟩ := Option.map_eq_some_iff.1 hs
    have hlt : s < sh.stores.size := (Array.getElem?_eq_some_iff.1 hst).1
    rw [Array.getElem?_push, if_neg (Nat.ne_of_lt hlt), hst, Option.map_some, hm]
  consent s st' hst' := by
    change (sh.stores.push _)[s]? = some st' at hst'
    rw [Array.getElem?_push] at hst'
    split at hst'
    · cases hst'
      refine .inr fun l hl => ?_
      -- a new store admits the first level only, which is none of `D`
      have hne : l ≠ .strictlyNecessary := by
        rintro rfl
        exact hD hl
      cases l with
      | strictlyNecessary => exact absurd rfl hne
      | functionality | performance | targeting => rfl
    · exact .inl ⟨st', hst', rfl, rfl⟩
  listeners source t' ht' l hl := by
    rw [Shell.keyedOf_addStore sh rfl] at ht'
    split at ht'
    · cases ht'
      cases hl
    · exact .inl ⟨t', ht', hl⟩

/-- A new context has no listeners of its own. -/
theorem newContext (sh : Shell α) (s : StoreId) :
    Seals D m key sh ((StorageStep.newContext s).perform sh) := by
  have hd := Shell.sameData_attachObserver sh s (.relay sh.contexts.size)
  -- what stands in the memory, and what the stores grant, is as before
  refine .of_maps (Nat.le_of_eq hd.memories.symm) (hd.entry (.memory m) key) hd.medium hd.consent ?_
  intro source t' ht' l hl
  change (sh.addContext s).2.keyedOf source = some t' at ht'
  rw [Shell.keyedOf_addContext] at ht'
  split at ht'
  · cases ht'
    cases hl
  · exact .inl ⟨t', ht', hl⟩

/-- A grant without a level of `D` denies them all. -/
theorem grant (hD : ¬ D .strictlyNecessary) (sh : Shell α) (s : StoreId)
    {levels : List ConsentLevel} (hl : ∀ l ∈ levels, ¬ D l) :
    Seals D m key sh { sh with
      stores := sh.stores.modify s fun st => { st with consent := .ofList levels } } := by
  have htables := Shell.SameTables.modify_stores sh s
    (f := fun st => { st with consent := .ofList levels }) (fun _ => rfl) fun _ => rfl
  refine ⟨Nat.le_refl _, rfl, ?medium, ?consent, ?listeners⟩
  case medium =>
    intro t md ht
    refine (Shell.map_getElem?_modify sh.stores s ?_ t).trans ht
    intro st
    rfl
  case consent =>
    intro t st' hst'
    change (sh.stores.modify s _)[t]? = some st' at hst'
    rw [Array.getElem?_modify] at hst'
    split at hst'
    · obtain ⟨old, -, rfl⟩ := Option.map_eq_some_iff.1 hst'
      -- a level that is granted in effect is listed, or it is the first one
      refine .inr fun l hdl => ?_
      have hne : l ≠ .strictlyNecessary := by
        rintro rfl
        exact hD hdl
      have hnot : l ∉ levels := fun hmem => hl l hmem hdl
      simp [ConsentSet.allows, hne, hnot]
    · exact .inl ⟨st', hst', rfl, rfl⟩
  case listeners =>
    exact fun source t' ht' _ hmem => .inl ⟨t', (htables.keyed source).symm.trans ht', hmem⟩

/-- Consent to levels outside of `D` breaks no seal. -/
theorem setConsent (hD : ¬ D .strictlyNecessary) (sh : Shell α) (s : StoreId)
    {levels : List ConsentLevel} (hl : ∀ l ∈ levels, ¬ D l) :
    Seals D m key sh (Shell.setConsent quiet s levels sh) := by
  rcases e : sh.stores[s]? with - | st
  · simp only [Shell.setConsent, e]
    exact .refl sh
  · simp only [Shell.setConsent, e]
    split
    · exact .grant hD sh s hl
    · exact (Seals.grant hD sh s hl).trans (.of_sameObjects (Shell.sameObjects_announce _ _ _))

/-- Installing a store in a context brings no listener. -/
theorem install (sh : Shell α) (c : ContextId) (ct : StoreContext) (s : StoreId) :
    Seals D m key sh (sh.install c ct s) := by
  have ha := Shell.sameData_attachObserver sh s (.relay c)
  have hd := Shell.sameData_detach
    { (sh.attachObserver s (.relay c)).2 with
      contexts := (sh.attachObserver s (.relay c)).2.contexts.modify c fun ct =>
        { ct with active := s, relay := (sh.attachObserver s (.relay c)).1 } }
    (.observers ct.active) ct.relay
  refine .of_maps (Nat.le_of_eq (hd.memories.trans ha.memories).symm) ?_ ?_ ?_ ?_
  · exact (hd.entry (.memory m) key).trans (ha.entry (.memory m) key)
  · exact fun t => (hd.medium t).trans (ha.medium t)
  · exact fun t => (hd.consent t).trans (ha.consent t)
  · intro source t' ht' _ hl
    exact .inl ⟨t', (Shell.keyedOf_install sh c ct s source).symm.trans ht', hl⟩

/-- A context may take another store: its listeners stay, and nothing is written. -/
theorem replace (sh : Shell α) (c : ContextId) (s : StoreId) :
    Seals D m key sh (Shell.replaceStore quiet c s sh).2 := by
  rcases e : sh.contexts[c]? with - | ct
  · simp only [Shell.replaceStore, e]
    exact .refl sh
  · rw [Shell.replaceStore_eq quiet e]
    exact (Seals.install sh c ct s).trans (.of_sameObjects (Shell.sameObjects_tell _ _ _))

/-- A new listener to the key must listen at a level of `D`. -/
theorem listen (sh : Shell α) (source : StoreSource) {l : KeyListener}
    (hl : l.key = key → D l.level) : Seals D m key sh (sh.listen source l).2 := by
  refine .of_sameData (Shell.sameData_listen sh source l) fun source' t' ht' l' hl' => ?_
  rcases e : sh.keyedOf source with - | t
  · -- no one can listen to a source that is not there
    refine .inl ⟨t', ?_, hl'⟩
    rw [← ht']
    cases source with
    | store s =>
      have hnone : sh.stores[s]? = none := Option.map_eq_none_iff.1 e
      cases source' <;> simp only [Shell.listen, hnone] <;> rfl
    | context c =>
      have hnone : sh.contexts[c]? = none := Option.map_eq_none_iff.1 e
      cases source' <;> simp only [Shell.listen, hnone] <;> rfl
  · rw [(Shell.listen_eq e l).2] at ht'
    by_cases hs : source = source'
    · rw [if_pos hs] at ht'
      cases ht'
      rw [Listeners.snapshot_insert, List.mem_append, List.mem_singleton] at hl'
      rcases hl' with hold | rfl
      · exact .inl ⟨t, hs ▸ e, hold⟩
      · exact .inr hl
    · rw [if_neg hs] at ht'
      exact .inl ⟨t', ht', hl'⟩

/-- A cancelled subscription brings no listener. -/
theorem unsubscribe (sh : Shell α) (n : SubscriptionId) :
    Seals D m key sh (sh.unsubscribe n) := by
  -- whoever still listens after a table lost an entry listened before
  have hdetach : ∀ table number source t', (sh.detach table number).keyedOf source = some t' →
      ∀ l ∈ t'.snapshot, ∃ t, sh.keyedOf source = some t ∧ l ∈ t.snapshot := by
    intro table number source t' ht' l hl
    have herase : ∀ source', table = StoreSource.table source' →
        ∃ t, sh.keyedOf source = some t ∧ l ∈ t.snapshot := by
      rintro source' rfl
      rw [Shell.keyedOf_detach_table] at ht'
      split at ht'
      · obtain ⟨t, ht, rfl⟩ := Option.map_eq_some_iff.1 ht'
        obtain ⟨e, he, rfl⟩ := List.mem_map.1 hl
        rw [Listeners.entries_erase] at he
        exact ⟨t, ht, List.mem_map.2 ⟨e, (List.mem_filter.1 he).1, rfl⟩⟩
      · exact ⟨t', ht', hl⟩
    cases table with
    | keyed s => exact herase (.store s) rfl
    | context c => exact herase (.context c) rfl
    | observers s =>
      rw [Shell.keyedOf_detach_observers] at ht'
      exact ⟨t', ht', hl⟩
    | queue q => cases source <;> exact ⟨t', ht', hl⟩
    | panel p => cases source <;> exact ⟨t', ht', hl⟩
  refine .of_sameData (Shell.sameData_unsubscribe sh n) fun source t' ht' l hl => .inl ?_
  rcases e : sh.subscriptions[n]? with - | ⟨table, number, active⟩
  · simp only [Shell.unsubscribe, e] at ht'
    exact ⟨t', ht', hl⟩
  · cases active with
    | false =>
      simp only [Shell.unsubscribe, e] at ht'
      exact ⟨t', ht', hl⟩
    | true =>
      simp only [Shell.unsubscribe, e, if_true] at ht'
      refine hdetach table number source t' ?_ l hl
      rw [← ht']
      cases source <;> rfl

end Seals

variable {sh : Shell α}

/-- A step that goes through the gate is denied, or touches another entry. -/
theorem Sealed.ne_of_admitted (hs : Sealed D m key sh) {b : Binding} (hb : b.key = key → D b.level)
    {s : StoreId} (ha : sh.admitted b = some s) : sh.mediumOf s = .memory m → b.key ≠ key := by
  intro hm hkey
  obtain ⟨-, st, hst, hallows⟩ := Shell.admitted_eq_some ha
  rw [Shell.mediumOf_eq hst] at hm
  rw [hs.denies s st hst hm b.level (hb hkey)] at hallows
  cases hallows

/-- A write to the sealed key is admitted by no store over the memory. -/
theorem Sealed.seals_changeBinding (hs : Sealed D m key sh) {b : Binding}
    (hb : b.key = key → D b.level) (value : Option String) :
    Seals D m key sh (Shell.changeBinding quiet b value sh) := by
  rw [Shell.changeBinding_eq]
  rcases e : sh.admitted b with - | t
  · exact .refl sh
  · exact (Seals.putEntry sh (hs.ne_of_admitted hb e) value).trans
      (.of_sameObjects (Shell.sameObjects_announce _ _ _))

/-- A sparing step keeps the seal and the entry. -/
theorem Sealed.seals_perform (hD : ¬ D .strictlyNecessary) (hs : Sealed D m key sh)
    {s : StorageStep} (hsp : s.Spares D m key) : Seals D m key sh (s.perform sh) := by
  cases s with
  | newMemory label => exact .newMemory sh label hs.there
  | newStore medium config => exact .newStore hD sh medium config
  | newContext t => exact .newContext sh t
  | read b =>
    have hread := Shell.sameObjects_read sh b.source b.key b.level
    exact .of_sameObjects (hread.trans (.note _ _))
  | write b value => exact hs.seals_changeBinding hsp (some value)
  | remove b => exact hs.seals_changeBinding hsp none
  | setConsent t levels => exact .setConsent hD sh t hsp
  | replace c t => exact .replace sh c t
  | close t =>
    exact .of_sameData_keyed (Shell.sameData_closeStore sh t) (Shell.sameTables_closeStore sh t).keyed
  | put medium other value => exact .putEntry sh hsp (some value)
  | take medium other => exact .putEntry sh hsp none
  | subscribe b => exact .listen sh b.source hsp
  | watch t =>
    exact .of_sameData_keyed (Shell.sameData_watch sh t _ _) fun source =>
      Shell.keyedOf_attachObserver sh t _ source
  | unsubscribe n => exact .unsubscribe sh n

/-- A sparing run keeps the seal and the entry. -/
theorem Sealed.seals_replay (hD : ¬ D .strictlyNecessary) (hs : Sealed D m key sh) {run : History}
    (hr : ∀ s ∈ run, StorageStep.Spares D m key s) : Seals D m key sh (run.replay sh) := by
  induction run with
  | nil => exact .refl sh
  | cons s past ih =>
    have hpast := ih fun s' hs' => hr s' (List.mem_cons_of_mem s hs')
    exact hpast.trans ((hs.of_seals hpast).seals_perform hD (hr s List.mem_cons_self))

end AppShell
