/-
AppShell/Proofs/Storage/Tables.lean

The tables of listeners that a step changes.

Who is told something is decided by three kinds of tables: the observers of each
store (`observersOf`), the listeners of each source (`keyedOf`), and the wire of
each context, which is its active store with the number of its relay there
(`wireOf`).  Accesses, grants and closes change none of them
(`sameTables_perform`); every other operation changes one place of one table.
-/
import AppShell.Proofs.Storage.Quiet

namespace AppShell

/-- The table in which the listeners of a source stand. -/
def StoreSource.table : StoreSource → ListenerTable
  | .store s => .keyed s
  | .context c => .context c

namespace Shell

variable {α : Type}

/-- The observers of a store. -/
def observersOf (sh : Shell α) (s : StoreId) : Option (Listeners StoreObserver) :=
  sh.stores[s]?.map Store.observers

/-- The listeners of a source. -/
def keyedOf (sh : Shell α) : StoreSource → Option (Listeners KeyListener)
  | .store s => sh.stores[s]?.map Store.keyed
  | .context c => sh.contexts[c]?.map StoreContext.keyed

/-- The active store of a context, and the number of its relay there. -/
def wireOf (sh : Shell α) (c : ContextId) : Option (StoreId × Nat) :=
  sh.contexts[c]?.map fun ct => (ct.active, ct.relay)

theorem keyedOf_store {sh : Shell α} {s : StoreId} {st : Store} (h : sh.stores[s]? = some st) :
    sh.keyedOf (.store s) = some st.keyed := by
  rw [keyedOf, h]
  rfl

theorem keyedOf_context {sh : Shell α} {c : ContextId} {ct : StoreContext}
    (h : sh.contexts[c]? = some ct) : sh.keyedOf (.context c) = some ct.keyed := by
  rw [keyedOf, h]
  rfl

theorem observersOf_eq {sh : Shell α} {s : StoreId} {st : Store} (h : sh.stores[s]? = some st) :
    sh.observersOf s = some st.observers := by
  rw [observersOf, h]
  rfl

theorem wireOf_eq {sh : Shell α} {c : ContextId} {ct : StoreContext}
    (h : sh.contexts[c]? = some ct) : sh.wireOf c = some (ct.active, ct.relay) := by
  rw [wireOf, h]
  rfl

/-! ### Shells with the same tables -/

/-- The same listeners, observers, wires and subscriptions, and the same objects in use. -/
structure SameTables (sh sh' : Shell α) : Prop where
  subscriptions : sh'.subscriptions = sh.subscriptions
  held : sh'.held = sh.held
  keyed : ∀ source, sh'.keyedOf source = sh.keyedOf source
  observers : ∀ s, sh'.observersOf s = sh.observersOf s
  wires : ∀ c, sh'.wireOf c = sh.wireOf c

namespace SameTables

variable {sh sh' sh'' : Shell α}

theorem trans (h : SameTables sh sh') (h' : SameTables sh' sh'') : SameTables sh sh'' where
  subscriptions := h'.subscriptions.trans h.subscriptions
  held := h'.held.trans h.held
  keyed source := (h'.keyed source).trans (h.keyed source)
  observers s := (h'.observers s).trans (h.observers s)
  wires c := (h'.wires c).trans (h.wires c)

/-- The tables are those of the stores and the contexts. -/
theorem of_fields (hs : sh'.stores = sh.stores) (hc : sh'.contexts = sh.contexts)
    (hn : sh'.subscriptions = sh.subscriptions) (hh : sh'.held = sh.held) : SameTables sh sh' where
  subscriptions := hn
  held := hh
  keyed source := by cases source <;> simp only [keyedOf, hs, hc]
  observers s := by simp only [observersOf, hs]
  wires c := by simp only [wireOf, hc]

theorem refl (sh : Shell α) : SameTables sh sh := .of_fields rfl rfl rfl rfl

/-- Shells with the same objects have the same tables. -/
theorem of_sameObjects (h : SameObjects sh sh') : SameTables sh sh' := by
  refine .of_fields h.stores h.contexts ?_ ?_
  · rw [h]
  · rw [h]

/-- A change of a store that keeps its listeners and observers keeps the tables. -/
theorem modify_stores (sh : Shell α) (s : StoreId) {f : Store → Store}
    (hk : ∀ st, (f st).keyed = st.keyed) (ho : ∀ st, (f st).observers = st.observers) :
    SameTables sh { sh with stores := sh.stores.modify s f } where
  subscriptions := rfl
  held := rfl
  keyed source := by
    cases source with
    | store t => exact map_getElem?_modify sh.stores s hk t
    | context c => rfl
  observers t := map_getElem?_modify sh.stores s ho t
  wires _ := rfl

end SameTables

/-- An access to a medium changes no table. -/
theorem sameTables_putEntry (sh : Shell α) (m : Medium) (key : String) (value : Option String) :
    SameTables sh (sh.putEntry m key value) := by
  rw [putEntry_frame]
  exact .of_fields rfl rfl rfl rfl

/-- If nobody answers, a change of a binding changes no table. -/
theorem sameTables_changeBinding (sh : Shell α) (b : Binding) (value : Option String) :
    SameTables sh (changeBinding quiet b value sh) := by
  rw [changeBinding_eq]
  split
  · exact .refl sh
  · exact (sameTables_putEntry sh _ _ _).trans (.of_sameObjects (sameObjects_announce _ _ _))

/-- Listeners stay when a medium is closed. -/
theorem sameTables_mediumClose (sh : Shell α) (m : Medium) :
    SameTables sh (sh.mediumClose m) := by
  unfold mediumClose
  repeat' split
  all_goals exact .of_fields rfl rfl rfl rfl

/-- Listeners stay when a store is closed. -/
theorem sameTables_closeStore (sh : Shell α) (s : StoreId) : SameTables sh (sh.closeStore s) := by
  unfold closeStore
  split
  · exact .refl sh
  · split
    · exact .refl sh
    · have hclosed := SameTables.modify_stores sh s (f := fun st => { st with closed := true })
        (fun _ => rfl) fun _ => rfl
      split
      · exact hclosed
      · exact hclosed.trans (sameTables_mediumClose _ _)

end Shell

namespace StorageStep

variable {α : Type}

open Shell (SameTables)

/-- Accesses, grants, closes and direct changes: no listener comes or goes. -/
def KeepsTables : StorageStep → Prop
  | .newMemory _ | .read _ | .write _ _ | .remove _ | .setConsent _ _ | .close _ | .put _ _ _
  | .take _ _ => True
  | _ => False

/-- A step with which no listener and no observer comes or goes changes no table. -/
theorem sameTables_perform {s : StorageStep} (hs : s.KeepsTables) (sh : Shell α) :
    SameTables sh (s.perform sh) := by
  cases s with
  | newMemory label => exact .of_fields rfl rfl rfl rfl
  | read b =>
    have hread := Shell.sameObjects_read sh b.source b.key b.level
    exact .of_sameObjects (hread.trans (.note _ _))
  | write b value => exact Shell.sameTables_changeBinding sh b (some value)
  | remove b => exact Shell.sameTables_changeBinding sh b none
  | setConsent t levels =>
    have hgranted := SameTables.modify_stores sh t
      (f := fun st => { st with consent := .ofList levels }) (fun _ => rfl) fun _ => rfl
    rw [perform, Shell.setConsent]
    split
    · exact .refl sh
    · simp only
      split
      · exact hgranted
      · exact hgranted.trans (.of_sameObjects (Shell.sameObjects_announce _ _ _))
  | close t => exact Shell.sameTables_closeStore sh t
  | put m key value => exact Shell.sameTables_putEntry sh m key (some value)
  | take m key => exact Shell.sameTables_putEntry sh m key none
  | newStore _ _ | newContext _ | replace _ _ | subscribe _ | watch _ | unsubscribe _ =>
    exact hs.elim

end StorageStep

namespace Shell

variable {α : Type} {sh : Shell α}

/-! ### Observers -/

/-- An observer is added behind the others of its store; other stores keep theirs. -/
theorem observersOf_attachObserver {s : StoreId} {t : Listeners StoreObserver}
    (hs : sh.observersOf s = some t) (o : StoreObserver) (s' : StoreId) :
    (sh.attachObserver s o).2.observersOf s' =
      if s = s' then some (t.insert o).2 else sh.observersOf s' := by
  obtain ⟨st, hst, rfl⟩ := Option.map_eq_some_iff.1 hs
  rw [attachObserver_eq hst]
  show (sh.stores.modify s _)[s']?.map Store.observers = _
  rw [Array.getElem?_modify]
  by_cases h : s = s'
  · subst h
    simp [hst]
  · simp [h, observersOf]

theorem subscriptions_attachObserver (sh : Shell α) (s : StoreId) (o : StoreObserver) :
    (sh.attachObserver s o).2.subscriptions = sh.subscriptions := by
  unfold attachObserver
  split <;> rfl

theorem held_attachObserver (sh : Shell α) (s : StoreId) (o : StoreObserver) :
    (sh.attachObserver s o).2.held = sh.held := by
  unfold attachObserver
  split <;> rfl

/-- A new observer gets the next number of its store. -/
theorem fst_attachObserver {s : StoreId} {t : Listeners StoreObserver}
    (hs : sh.observersOf s = some t) (o : StoreObserver) :
    (sh.attachObserver s o).1 = t.issued + 1 := by
  obtain ⟨st, hst, rfl⟩ := Option.map_eq_some_iff.1 hs
  rw [attachObserver_eq hst]

/-- A watch is a subscription to the observers of the store. -/
theorem subscriptions_watch {s : StoreId} {t : Listeners StoreObserver}
    (hs : sh.observersOf s = some t) (label : String) (callback : CallbackId) :
    (sh.watch s label callback).2.subscriptions
      = sh.subscriptions.push ⟨.observers s, t.issued + 1, true⟩ := by
  show (sh.attachObserver s (.watch label callback)).2.subscriptions.push
    ⟨.observers s, (sh.attachObserver s (.watch label callback)).1, true⟩ = _
  rw [subscriptions_attachObserver, fst_attachObserver hs]

/-- An observer is taken from its store only. -/
theorem observersOf_detach_observers (sh : Shell α) (s : StoreId) (number : Nat) (s' : StoreId) :
    (sh.detach (.observers s) number).observersOf s' =
      if s = s' then (sh.observersOf s').map (·.erase number) else sh.observersOf s' := by
  refine map_getElem?_modify_of ?_ s'
  intro st _
  rfl

/-- Listeners that leave are no observers. -/
theorem observersOf_detach_table (sh : Shell α) (source : StoreSource) (number : Nat)
    (s' : StoreId) :
    (sh.detach source.table number).observersOf s' = sh.observersOf s' := by
  cases source with
  | store s =>
    refine map_getElem?_modify sh.stores s ?_ s'
    intro st
    rfl
  | context c => rfl

theorem observersOf_listen (sh : Shell α) (source : StoreSource) (l : KeyListener)
    (s' : StoreId) : (sh.listen source l).2.observersOf s' = sh.observersOf s' := by
  cases source with
  | store s =>
    unfold listen
    rcases e : sh.stores[s]? with - | st
    · simp only [e]
      rfl
    · simp only [e]
      refine map_getElem?_modify sh.stores s ?_ s'
      intro st
      rfl
  | context c =>
    unfold listen
    rcases e : sh.contexts[c]? with - | ct
    · simp only [e]
      rfl
    · simp only [e]
      rfl

/-- On a replacement the relay moves from the old store to the new one. -/
theorem observersOf_install (sh : Shell α) (c : ContextId) (ct : StoreContext) (s s' : StoreId) :
    (sh.install c ct s).observersOf s' =
      if ct.active = s' then
        ((sh.attachObserver s (.relay c)).2.observersOf s').map (·.erase ct.relay)
      else (sh.attachObserver s (.relay c)).2.observersOf s' :=
  observersOf_detach_observers _ ct.active ct.relay s'

/-- The wire of the context leads to the new store, under the number of the relay there. -/
theorem wireOf_install {c : ContextId} {ct : StoreContext} (hc : sh.contexts[c]? = some ct)
    {s : StoreId} {t : Listeners StoreObserver} (hs : sh.observersOf s = some t)
    (c' : ContextId) :
    (sh.install c ct s).wireOf c' = if c' = c then some (s, t.issued + 1) else sh.wireOf c' := by
  rw [wireOf, contexts_install, fst_attachObserver hs, Array.getElem?_modify]
  by_cases h : c' = c
  · subst h
    simp [hc]
  · rw [if_neg (Ne.symm h), if_neg h]
    rfl

/-- Who listens makes no difference to where a context leads. -/
theorem wireOf_listen (sh : Shell α) (source : StoreSource) (l : KeyListener) (c : ContextId) :
    (sh.listen source l).2.wireOf c = sh.wireOf c := by
  cases source with
  | store s =>
    unfold listen
    rcases e : sh.stores[s]? with - | st <;> simp only [e] <;> rfl
  | context d =>
    unfold listen
    rcases e : sh.contexts[d]? with - | ct
    · simp only [e]
      rfl
    · simp only [e]
      refine map_getElem?_modify sh.contexts d ?_ c
      intro ct
      rfl

theorem held_listen (sh : Shell α) (source : StoreSource) (l : KeyListener) :
    (sh.listen source l).2.held = sh.held := by
  cases source <;> simp only [listen] <;> split <;> rfl

/-- No wire is cut by a listener or an observer that leaves. -/
theorem wireOf_detach (sh : Shell α) (table : ListenerTable) (number : Nat) (c : ContextId) :
    (sh.detach table number).wireOf c = sh.wireOf c := by
  cases table with
  | context d =>
    refine map_getElem?_modify sh.contexts d ?_ c
    intro ct
    rfl
  | keyed s | observers s | queue q | panel p => rfl

theorem held_detach (sh : Shell α) (table : ListenerTable) (number : Nat) :
    (sh.detach table number).held = sh.held := by
  cases table <;> rfl

/-! ### Listeners of sources -/

/-- An observer of a store is not among the listeners of any source. -/
theorem keyedOf_attachObserver (sh : Shell α) (s : StoreId) (o : StoreObserver)
    (source : StoreSource) : (sh.attachObserver s o).2.keyedOf source = sh.keyedOf source := by
  unfold attachObserver
  split
  · rfl
  · cases source with
    | store s' =>
      refine map_getElem?_modify sh.stores s ?_ s'
      intro st
      rfl
    | context c => rfl

/-- Nor is it when it leaves. -/
theorem keyedOf_detach_observers (sh : Shell α) (s : StoreId) (number : Nat)
    (source : StoreSource) :
    (sh.detach (.observers s) number).keyedOf source = sh.keyedOf source := by
  cases source with
  | store s' =>
    refine map_getElem?_modify sh.stores s ?_ s'
    intro st
    rfl
  | context c => rfl

/-- A listener is taken from its own source only. -/
theorem keyedOf_detach_table (sh : Shell α) (source : StoreSource) (number : Nat)
    (source' : StoreSource) :
    (sh.detach source.table number).keyedOf source' =
      if source = source' then (sh.keyedOf source').map (·.erase number)
      else sh.keyedOf source' := by
  rcases source with s | c <;> rcases source' with s' | c'
  · simp only [StoreSource.store.injEq]
    refine map_getElem?_modify_of ?_ s'
    intro st _
    rfl
  · rfl
  · rfl
  · simp only [StoreSource.context.injEq]
    refine map_getElem?_modify_of ?_ c'
    intro ct _
    rfl

/-- Nobody listens to a store that is new; all other sources keep their listeners. -/
theorem keyedOf_addStore (sh : Shell α) {st : Store} (hst : st.keyed = .empty)
    (source : StoreSource) :
    (sh.addStore st).2.keyedOf source =
      if source = .store sh.stores.size then some .empty else sh.keyedOf source := by
  cases source with
  | store s =>
    show (sh.stores.push st)[s]?.map Store.keyed = _
    rw [Array.getElem?_push]
    by_cases h : s = sh.stores.size
    · simp [h, hst]
    · simp [h, keyedOf]
  | context c => rfl

/-- Nobody listens to a context that is new; all other sources keep their listeners. -/
theorem keyedOf_addContext (sh : Shell α) (s : StoreId) (source : StoreSource) :
    (sh.addContext s).2.keyedOf source =
      if source = .context sh.contexts.size then some .empty else sh.keyedOf source := by
  cases source with
  | store s' =>
    rw [if_neg StoreSource.noConfusion]
    exact keyedOf_attachObserver sh s _ (.store s')
  | context c =>
    show ((sh.attachObserver s (.relay sh.contexts.size)).2.contexts.push _)[c]?.map
      StoreContext.keyed = _
    rw [contexts_attachObserver, Array.getElem?_push]
    by_cases h : c = sh.contexts.size
    · simp [h]
    · simp [h, keyedOf]

/-- The listeners of a context stay with it when its store is replaced. -/
theorem keyedOf_install (sh : Shell α) (c : ContextId) (ct : StoreContext) (s : StoreId)
    (source : StoreSource) : (sh.install c ct s).keyedOf source = sh.keyedOf source := by
  cases source with
  | store s' =>
    refine (keyedOf_detach_observers _ ct.active ct.relay (.store s')).trans ?_
    exact keyedOf_attachObserver sh s _ (.store s')
  | context d =>
    rw [keyedOf, contexts_install]
    refine map_getElem?_modify sh.contexts c ?_ d
    intro ct'
    rfl

/-- A listener is put behind the others of its source and gets the next number. -/
theorem listen_eq {source : StoreSource} {t : Listeners KeyListener}
    (hs : sh.keyedOf source = some t) (l : KeyListener) :
    (sh.listen source l).2.subscriptions
        = sh.subscriptions.push ⟨source.table, t.issued + 1, true⟩ ∧
      ∀ source', (sh.listen source l).2.keyedOf source' =
        if source = source' then some (t.insert l).2 else sh.keyedOf source' := by
  rcases source with s | c
  · obtain ⟨st, hst, rfl⟩ := Option.map_eq_some_iff.1 hs
    refine ⟨by simp only [listen, hst]; rfl, fun source' => ?_⟩
    simp only [listen, hst]
    rcases source' with s' | c'
    · show (sh.stores.modify s _)[s']?.map Store.keyed = _
      rw [Array.getElem?_modify]
      by_cases h : s = s'
      · subst h
        simp [hst]
      · simp [h, keyedOf]
    · rfl
  · obtain ⟨ct, hct, rfl⟩ := Option.map_eq_some_iff.1 hs
    refine ⟨by simp only [listen, hct]; rfl, fun source' => ?_⟩
    simp only [listen, hct]
    rcases source' with s' | c'
    · rfl
    · show (sh.contexts.modify c _)[c']?.map StoreContext.keyed = _
      rw [Array.getElem?_modify]
      by_cases h : c = c'
      · subst h
        simp [hct]
      · simp [h, keyedOf]

end Shell

end AppShell
