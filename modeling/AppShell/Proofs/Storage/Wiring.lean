/-
AppShell/Proofs/Storage/Wiring.lean

Each context is wired to its active store, once.

`Wired` says that among the observers of a store, the relays of a context are
exactly the one with the number that the context remembers if the store is its
active one, and none otherwise.  A replacement attaches the new relay before it
detaches the old one, and both may stand in one table when a store is replaced
by itself; the new one has a number of its own, so exactly the old one goes
(`Wired.replace`).  Watchers are told apart by their numbers too, so that ending
one leaves the relays as they are (`Wired.unsubscribe`).
-/
import AppShell.Proofs.Listeners
import AppShell.Proofs.Storage.Refinement
import AppShell.Proofs.Storage.Tables

namespace AppShell

variable {α : Type}

/-- Whether an observer is a relay of a context. -/
def StoreObserver.relays (c : ContextId) (o : StoreObserver) : Bool :=
  o == .relay c

namespace Shell

/-- The relays of a context that belong among the observers of a store. -/
def wired (sh : Shell α) (s : StoreId) (c : ContextId) : List (Nat × StoreObserver) :=
  match sh.wireOf c with
  | some (active, number) => if active = s then [(number, .relay c)] else []
  | none => []

/-- Each context is wired to its active store, once, and stays in use. -/
structure Wired (sh : Shell α) : Prop where
  ordered : ∀ s t, sh.observersOf s = some t → t.Ordered
  relays : ∀ s t c, sh.observersOf s = some t →
    (t.entries.filter fun e => e.2.relays c) = sh.wired s c
  watchers : ∀ (n : SubscriptionId) number s,
    sh.subscriptions[n]? = some ⟨.observers s, number, true⟩ →
    ∃ t, sh.observersOf s = some t ∧ (number, .watch (recordLabel n) n) ∈ t.entries
  inUse : ∀ c w, sh.wireOf c = some w → .context c ∈ sh.held

namespace Wired

variable {sh sh' : Shell α}

theorem empty : Wired (Shell.empty : Shell α) where
  ordered _ _ h := by cases h
  relays _ _ _ h := by cases h
  watchers _ _ _ h := by cases h
  inUse _ _ h := by cases h

/-- Only observers, wires, watchers and the objects in use matter. -/
theorem of_frame (hw : Wired sh) (ho : ∀ s, sh'.observersOf s = sh.observersOf s)
    (hc : ∀ c, sh'.wireOf c = sh.wireOf c) (hh : sh'.held = sh.held)
    (hn : ∀ (n : SubscriptionId) number s,
      sh'.subscriptions[n]? = some ⟨.observers s, number, true⟩ →
      sh.subscriptions[n]? = some ⟨.observers s, number, true⟩) : Wired sh' where
  ordered s t ht := hw.ordered s t (by rw [← ho, ht])
  relays s t c ht := by
    rw [wired, hc]
    exact hw.relays s t c (by rw [← ho, ht])
  watchers n number s h := by
    rw [ho]
    exact hw.watchers n number s (hn n number s h)
  inUse c w h := by
    rw [hh]
    exact hw.inUse c w (by rw [← hc, h])

/-- Wires are a matter of the tables of observers and of the contexts. -/
theorem of_sameTables (hw : Wired sh) (h : SameTables sh sh') : Wired sh' := by
  refine hw.of_frame h.observers h.wires h.held ?_
  intro n number s hn
  rwa [← h.subscriptions]

/-- A context that is in use is alive. -/
theorem alive (hw : Wired sh) {c : ContextId} {w : StoreId × Nat} (hc : sh.wireOf c = some w) :
    sh.contextAlive c = true := by
  rw [contextAlive, List.any_eq_true]
  refine ⟨.context c, ?_, ?_⟩
  · rw [referenced, List.mem_append]
    exact .inr (hw.inUse c w hc)
  · simp [keepsContext]

/-- The old relay of a context stands in the table of its active store. -/
theorem mem_relay (hw : Wired sh) {c : ContextId} {s : StoreId} {number : Nat}
    (hc : sh.wireOf c = some (s, number)) {t : Listeners StoreObserver}
    (hs : sh.observersOf s = some t) : (number, .relay c) ∈ t.entries := by
  have hrelays := hw.relays s t c hs
  rw [wired, hc] at hrelays
  simp only [if_true] at hrelays
  have : (number, StoreObserver.relay c) ∈ t.entries.filter fun e => e.2.relays c := by
    rw [hrelays]
    exact List.mem_singleton_self _
  exact (List.mem_filter.1 this).1

/-- A new store has no observers, so that no wire leads to it. -/
theorem newStore (st : Store) (hst : st.observers = .empty) (hw : Wired sh)
    (hinside : ∀ c w, sh.wireOf c = some w → w.1 < sh.stores.size) :
    Wired (sh.addStore st).2 := by
  have hobs : ∀ s, (sh.addStore st).2.observersOf s
      = if s = sh.stores.size then some .empty else sh.observersOf s := by
    intro s
    show (sh.stores.push st)[s]?.map Store.observers = _
    rw [Array.getElem?_push]
    split
    · rw [Option.map_some, hst]
    · rfl
  refine ⟨?ordered, ?relays, ?watchers, hw.inUse⟩
  case ordered =>
    intro s t ht
    rw [hobs] at ht
    split at ht
    · cases ht
      exact Listeners.ordered_empty
    · exact hw.ordered s t ht
  case relays =>
    intro s t c ht
    rw [hobs] at ht
    by_cases hs : s = sh.stores.size
    · rw [if_pos hs] at ht
      cases ht
      -- no context is wired to a store that was not there
      show [] = sh.wired s c
      rcases hc : sh.wireOf c with - | ⟨active, number⟩
      · simp only [wired, hc]
      · have hlt : active < sh.stores.size := hinside c _ hc
        have hne : active ≠ s := by
          rintro rfl
          exact absurd hs (Nat.ne_of_lt hlt)
        simp only [wired, hc, hne, if_false]
    · rw [if_neg hs] at ht
      exact hw.relays s t c ht
  case watchers =>
    intro n number s hn
    obtain ⟨t, ht, hmem⟩ := hw.watchers n number s hn
    refine ⟨t, ?_, hmem⟩
    rw [hobs, if_neg, ht]
    rintro rfl
    simp [observersOf] at ht

/-! ### Attaching an observer -/

/-- A new observer comes last in its table, under a number of its own. -/
theorem ordered_attachObserver (hw : Wired sh) {s : StoreId} {t : Listeners StoreObserver}
    (hs : sh.observersOf s = some t) (o : StoreObserver) {s' : StoreId}
    {t' : Listeners StoreObserver} (ht : (sh.attachObserver s o).2.observersOf s' = some t') :
    t'.Ordered := by
  rw [observersOf_attachObserver hs] at ht
  split at ht
  · cases ht
    exact (hw.ordered s t hs).insert o
  · exact hw.ordered s' t' ht

/-- An observer that is attached stands behind the relays that were there. -/
theorem relays_attachObserver (hw : Wired sh) {s : StoreId} {t : Listeners StoreObserver}
    (hs : sh.observersOf s = some t) (o : StoreObserver) {s' : StoreId}
    {t' : Listeners StoreObserver} (ht : (sh.attachObserver s o).2.observersOf s' = some t')
    (c : ContextId) :
    (t'.entries.filter fun e => e.2.relays c)
      = sh.wired s' c ++ if s = s' ∧ o.relays c = true then [(t.issued + 1, o)] else [] := by
  rw [observersOf_attachObserver hs] at ht
  by_cases h : s = s'
  · subst h
    rw [if_pos rfl] at ht
    cases ht
    rw [Listeners.filter_insert, hw.relays s t c hs]
    by_cases ho : o.relays c = true <;> simp [ho]
  · rw [if_neg h] at ht
    rw [hw.relays s' t' c ht]
    simp [h]

/-- Who observed a store still does when somebody else begins to. -/
theorem mem_attachObserver {s : StoreId} {t : Listeners StoreObserver}
    (hs : sh.observersOf s = some t) (o : StoreObserver) {s' : StoreId}
    {u : Listeners StoreObserver} (hu : sh.observersOf s' = some u) {e : Nat × StoreObserver}
    (he : e ∈ u.entries) :
    ∃ u', (sh.attachObserver s o).2.observersOf s' = some u' ∧ e ∈ u'.entries := by
  rw [observersOf_attachObserver hs]
  by_cases h : s = s'
  · subst h
    rw [hs] at hu
    cases hu
    refine ⟨_, if_pos rfl, ?_⟩
    rw [Listeners.entries_insert]
    exact List.mem_append_left _ he
  · exact ⟨u, by rw [if_neg h, hu], he⟩

/-- A new context is wired to its store. -/
theorem newContext (hw : Wired sh) {s : StoreId} {t : Listeners StoreObserver}
    (hs : sh.observersOf s = some t) :
    Wired ((sh.addContext s).2.hold (.context (sh.addContext s).1)) := by
  have hwire : ∀ c, ((sh.addContext s).2.hold (.context (sh.addContext s).1)).wireOf c
      = if c = sh.contexts.size then some (s, t.issued + 1) else sh.wireOf c := by
    intro c
    show ((sh.attachObserver s (.relay sh.contexts.size)).2.contexts.push
      ⟨s, (sh.attachObserver s (.relay sh.contexts.size)).1, .empty⟩)[c]?.map _ = _
    rw [contexts_attachObserver, fst_attachObserver hs, Array.getElem?_push]
    split
    · rfl
    · rfl
  have hnone : sh.wireOf sh.contexts.size = none := by simp [wireOf]
  refine ⟨fun s' t' ht => hw.ordered_attachObserver hs _ ht, ?relays, ?watchers, ?inUse⟩
  case relays =>
    intro s' t' c ht
    rw [hw.relays_attachObserver hs _ ht, wired, wired, hwire]
    -- the context that is made had no relay before
    by_cases hc : c = sh.contexts.size
    · subst hc
      simp [hnone, StoreObserver.relays]
    · simp [hc, StoreObserver.relays, Ne.symm hc]
  case watchers =>
    intro n number s' hn
    change (sh.attachObserver s (.relay sh.contexts.size)).2.subscriptions[n]? = _ at hn
    rw [subscriptions_attachObserver] at hn
    obtain ⟨u, hu, hmem⟩ := hw.watchers n number s' hn
    exact mem_attachObserver hs _ hu hmem
  case inUse =>
    intro c w hc
    show Object.context c ∈ Object.context sh.contexts.size ::
      (sh.attachObserver s (.relay sh.contexts.size)).2.held
    rw [hwire] at hc
    rw [held_attachObserver, List.mem_cons]
    by_cases hlast : c = sh.contexts.size
    · exact .inl (by rw [hlast])
    · rw [if_neg hlast] at hc
      exact .inr (hw.inUse c w hc)

/-! ### Replacing a store -/

/-- While a store is replaced, the old relay of the context stands where it stood. -/
theorem mem_relay_attachObserver (hw : Wired sh) {c : ContextId} {active : StoreId} {number : Nat}
    (hold : sh.wireOf c = some (active, number)) {s : StoreId} {t : Listeners StoreObserver}
    (hs : sh.observersOf s = some t) {u : Listeners StoreObserver}
    (hu : (sh.attachObserver s (.relay c)).2.observersOf active = some u) :
    (number, .relay c) ∈ u.entries := by
  rcases ha : sh.observersOf active with - | v
  · rw [observersOf_attachObserver hs] at hu
    by_cases hsa : s = active
    · rw [← hsa, hs] at ha
      cases ha
    · rw [if_neg hsa, ha] at hu
      cases hu
  · obtain ⟨u', hu', he⟩ := mem_attachObserver hs (.relay c) ha (hw.mem_relay hold ha)
    rw [hu] at hu'
    cases hu'
    exact he

/-- A replacement moves the relay of the context, and no other. -/
theorem relays_install (hw : Wired sh) {c : ContextId} {ct : StoreContext}
    (hc : sh.contexts[c]? = some ct) {s : StoreId} {t : Listeners StoreObserver}
    (hs : sh.observersOf s = some t) {s' : StoreId} {t' : Listeners StoreObserver}
    (ht : (sh.install c ct s).observersOf s' = some t') (c' : ContextId) :
    (t'.entries.filter fun e => e.2.relays c') = (sh.install c ct s).wired s' c' := by
  have hold := wireOf_eq hc
  rw [observersOf_install] at ht
  rw [wired, wireOf_install hc hs]
  by_cases ha : ct.active = s'
  · -- the table that the old relay is taken from
    rw [if_pos ha] at ht
    obtain ⟨u, hu, rfl⟩ := Option.map_eq_some_iff.1 ht
    have hrelays := hw.relays_attachObserver hs (.relay c) hu
    by_cases hcc : c' = c
    · subst hcc
      rw [Listeners.filter_erase, hrelays, wired, hold]
      by_cases hss : s = s'
      · -- the store is replaced by itself: the new relay has a number of its own
        subst hss
        subst ha
        have hnew : ct.relay ≠ t.issued + 1 :=
          (hw.ordered _ t hs).not_mem_next (hw.mem_relay hold hs)
        simp [StoreObserver.relays, Ne.symm hnew]
      · simp [ha, hss, StoreObserver.relays]
    · -- the old relay is not one of another context
      subst ha
      have hother : (StoreObserver.relay c).relays c' = false := by
        simp [StoreObserver.relays, Ne.symm hcc]
      rw [(hw.ordered_attachObserver hs _ hu).filter_erase_of_mem
        (hw.mem_relay_attachObserver hold hs hu) fun _ => hother, hrelays]
      simp [wired, hcc, StoreObserver.relays, Ne.symm hcc]
  · rw [if_neg ha] at ht
    rw [hw.relays_attachObserver hs _ ht, wired]
    by_cases hcc : c' = c
    · subst hcc
      simp [hold, ha, StoreObserver.relays]
    · simp [hcc, StoreObserver.relays, Ne.symm hcc]

/-- After a replacement the context is wired to its new store, and to no other. -/
theorem install (hw : Wired sh) {c : ContextId} {ct : StoreContext}
    (hc : sh.contexts[c]? = some ct) {s : StoreId} {t : Listeners StoreObserver}
    (hs : sh.observersOf s = some t) : Wired (sh.install c ct s) := by
  have hold := wireOf_eq hc
  refine ⟨?ordered, fun s' t' c' ht => hw.relays_install hc hs ht c', ?watchers, ?inUse⟩
  case ordered =>
    intro s' t' ht
    rw [observersOf_install] at ht
    split at ht
    · obtain ⟨u, hu, rfl⟩ := Option.map_eq_some_iff.1 ht
      exact (hw.ordered_attachObserver hs _ hu).erase ct.relay
    · exact hw.ordered_attachObserver hs _ ht
  case watchers =>
    intro n number s' hn
    change (sh.attachObserver s (.relay c)).2.subscriptions[n]? = _ at hn
    rw [subscriptions_attachObserver] at hn
    obtain ⟨u, hu, he⟩ := hw.watchers n number s' hn
    obtain ⟨u', hu', he'⟩ := mem_attachObserver hs (.relay c) hu he
    rw [observersOf_install]
    by_cases ha : ct.active = s'
    · subst ha
      -- a number stands for one observer, and the old relay is no watcher
      have hne : number ≠ ct.relay := by
        rintro rfl
        have hsame := (hw.ordered_attachObserver hs _ hu').unique he'
          (hw.mem_relay_attachObserver hold hs hu')
        cases hsame
      refine ⟨u'.erase ct.relay, by rw [if_pos rfl, hu']; rfl, ?_⟩
      rw [Listeners.entries_erase, List.mem_filter]
      exact ⟨he', by simpa using hne⟩
    · exact ⟨u', by rw [if_neg ha, hu'], he'⟩
  case inUse =>
    intro c' w hc'
    show Object.context c' ∈ (sh.attachObserver s (.relay c)).2.held
    rw [held_attachObserver]
    rw [wireOf_install hc hs] at hc'
    by_cases hcc : c' = c
    · subst hcc
      exact hw.inUse c' _ hold
    · rw [if_neg hcc] at hc'
      exact hw.inUse c' w hc'

/-! ### Subscriptions -/

/-- Listening adds no observer. -/
theorem listen (hw : Wired sh) {source : StoreSource} {t : Listeners KeyListener}
    (hs : sh.keyedOf source = some t) (l : KeyListener) : Wired (sh.listen source l).2 := by
  refine hw.of_frame (observersOf_listen sh source l) (wireOf_listen sh source l)
    (held_listen sh source l) ?_
  intro n number s hn
  rw [(listen_eq hs l).1, Array.getElem?_push] at hn
  split at hn
  · -- the new subscription is not one of a watcher
    cases source <;> cases hn
  · exact hn

/-- Watching a store adds an observer that is no context. -/
theorem watch (hw : Wired sh) {s : StoreId} {t : Listeners StoreObserver}
    (hs : sh.observersOf s = some t) :
    Wired (sh.watch s (recordLabel sh.subscriptions.size) sh.subscriptions.size).2 := by
  have hwire : ∀ c, (sh.watch s (recordLabel sh.subscriptions.size)
      sh.subscriptions.size).2.wireOf c = sh.wireOf c := by
    intro c
    show (sh.attachObserver s _).2.contexts[c]?.map _ = _
    rw [contexts_attachObserver]
    rfl
  refine ⟨fun s' t' ht => hw.ordered_attachObserver hs _ ht, ?relays, ?watchers, ?inUse⟩
  case relays =>
    intro s' t' c ht
    rw [hw.relays_attachObserver hs _ ht, wired, wired, hwire]
    simp [StoreObserver.relays]
  case watchers =>
    intro n number s' hn
    rw [subscriptions_watch hs, Array.getElem?_push] at hn
    -- the watcher is the newest subscription, and its observer the newest of the store
    by_cases hlast : n = sh.subscriptions.size
    · rw [if_pos hlast] at hn
      cases hn
      subst hlast
      refine ⟨_, (observersOf_attachObserver hs _ s).trans (if_pos rfl), ?_⟩
      rw [Listeners.entries_insert]
      exact List.mem_append_right _ (List.mem_singleton_self _)
    · rw [if_neg hlast] at hn
      obtain ⟨u, hu, he⟩ := hw.watchers n number s' hn
      exact mem_attachObserver hs _ hu he
  case inUse =>
    intro c w hc
    rw [hwire] at hc
    show Object.context c ∈ (sh.attachObserver s _).2.held
    rw [held_attachObserver]
    exact hw.inUse c w hc

/-- The end of a watcher leaves the relays and the other watchers. -/
theorem detach_watcher (hw : Wired sh) {n : SubscriptionId} {s : StoreId} {number : Nat}
    (hn : sh.subscriptions[n]? = some ⟨.observers s, number, true⟩) :
    Wired { sh.detach (.observers s) number with
      subscriptions := sh.subscriptions.modify n fun sub => { sub with active := false } } := by
  obtain ⟨t, ht, he⟩ := hw.watchers n number s hn
  have hobs : ∀ s', (sh.detach (.observers s) number).observersOf s'
      = if s = s' then (sh.observersOf s').map (·.erase number) else sh.observersOf s' :=
    observersOf_detach_observers sh s number
  refine ⟨?ordered, ?relays, ?watchers, hw.inUse⟩
  case ordered =>
    intro s' t' ht'
    change (sh.detach (.observers s) number).observersOf s' = some t' at ht'
    rw [hobs] at ht'
    split at ht'
    · obtain ⟨u, hu, rfl⟩ := Option.map_eq_some_iff.1 ht'
      exact (hw.ordered s' u hu).erase number
    · exact hw.ordered s' t' ht'
  case relays =>
    intro s' t' c ht'
    change (sh.detach (.observers s) number).observersOf s' = some t' at ht'
    rw [hobs] at ht'
    by_cases hs : s = s'
    · subst hs
      rw [if_pos rfl, ht] at ht'
      cases ht'
      rw [(hw.ordered s t ht).filter_erase_of_mem he fun _ => by simp [StoreObserver.relays]]
      exact hw.relays s t c ht
    · rw [if_neg hs] at ht'
      exact hw.relays s' t' c ht'
  case watchers =>
    intro m number' s' hm
    change (sh.subscriptions.modify n _)[m]? = _ at hm
    rw [Array.getElem?_modify] at hm
    by_cases hnm : n = m
    · subst hnm
      rw [if_pos rfl, hn] at hm
      cases hm
    · rw [if_neg hnm] at hm
      obtain ⟨u, hu, he'⟩ := hw.watchers m number' s' hm
      show ∃ t', (sh.detach (.observers s) number).observersOf s' = some t' ∧ _
      rw [hobs]
      by_cases hs : s = s'
      · subst hs
        rw [ht] at hu
        cases hu
        -- two watchers under one number would be the same
        have hne : number' ≠ number := by
          rintro rfl
          exact hnm (StoreObserver.watch.inj ((hw.ordered s t ht).unique he he')).2
        refine ⟨t.erase number, by rw [if_pos rfl, ht]; rfl, ?_⟩
        rw [Listeners.entries_erase, List.mem_filter]
        exact ⟨he', by simpa using hne⟩
      · exact ⟨u, by rw [if_neg hs, hu], he'⟩

/-- A cancelled subscription takes no wire away: those belong to the contexts. -/
theorem unsubscribe (hw : Wired sh) (n : SubscriptionId) : Wired (sh.unsubscribe n) := by
  rcases e : sh.subscriptions[n]? with - | ⟨table, number, active⟩
  · simp only [Shell.unsubscribe, e]
    exact hw
  · cases active with
    | false =>
      simp only [Shell.unsubscribe, e]
      exact hw
    | true =>
      simp only [Shell.unsubscribe, e, if_true]
      have hsub : ∀ (m : SubscriptionId) number' s,
          (sh.subscriptions.modify n fun sub => { sub with active := false })[m]?
            = some ⟨.observers s, number', true⟩ →
          sh.subscriptions[m]? = some ⟨.observers s, number', true⟩ := by
        intro m number' s hm
        rw [Array.getElem?_modify] at hm
        by_cases hnm : n = m
        · rw [if_pos hnm, ← hnm, e] at hm
          cases hm
        · rwa [if_neg hnm] at hm
      have hwire := wireOf_detach sh table number
      have hheld := held_detach sh table number
      cases table with
      | observers s => exact hw.detach_watcher e
      | keyed s => exact hw.of_frame (observersOf_detach_table sh (.store s) number) hwire hheld hsub
      | context c =>
        exact hw.of_frame (observersOf_detach_table sh (.context c) number) hwire hheld hsub
      | queue q => exact hw.of_frame (fun _ => rfl) hwire hheld hsub
      | panel p => exact hw.of_frame (fun _ => rfl) hwire hheld hsub

end Wired

end Shell

/-! ### Every history keeps the wiring -/

namespace Tracks

open Shell (Wired quiet)

variable {past : History} {s : StorageStep} {sh : Shell α}

/-- Every store of the history has its table of observers. -/
theorem exists_observers (ht : Tracks past sh) {t : StoreId} (hs : t < past.stores) :
    ∃ os, sh.observersOf t = some os := by
  obtain ⟨st, hst⟩ := ht.exists_store hs
  exact ⟨st.observers, Shell.observersOf_eq hst⟩

/-- Every source of the history has its table of listeners. -/
theorem exists_keyed (ht : Tracks past sh) {source : StoreSource} (hs : past.HasSource source) :
    ∃ ls, sh.keyedOf source = some ls := by
  cases source with
  | store t =>
    obtain ⟨st, hst⟩ := ht.exists_store hs
    exact ⟨st.keyed, Shell.keyedOf_store hst⟩
  | context c =>
    obtain ⟨ct, hct⟩ := ht.exists_context hs
    exact ⟨ct.keyed, Shell.keyedOf_context hct⟩

/-- A wire leads to a store that is there. -/
theorem wireOf_inside (ht : Tracks past sh) {c : ContextId} {w : StoreId × Nat}
    (hc : sh.wireOf c = some w) : w.1 < sh.stores.size := by
  obtain ⟨ct, hct, rfl⟩ := Option.map_eq_some_iff.1 hc
  have hi : past.installed c = some ct.active := by rw [← ht.active c, hct]; rfl
  rw [ht.stores]
  exact ht.inside c ct.active hi

/-- A valid step keeps every context wired to its active store. -/
theorem wired_perform (hr : past.Refers s) (ht : Tracks past sh) (hw : Wired sh) :
    Wired (s.perform sh) := by
  cases s with
  | newStore m config => exact hw.newStore _ rfl fun c w => ht.wireOf_inside
  | newContext t =>
    obtain ⟨os, hos⟩ := ht.exists_observers hr
    exact hw.newContext hos
  | replace c t =>
    obtain ⟨ct, hct⟩ := ht.exists_context hr.1
    obtain ⟨os, hos⟩ := ht.exists_observers hr.2
    rw [StorageStep.perform, Shell.replaceStore_eq quiet hct]
    exact (hw.install hct hos).of_sameTables (.of_sameObjects (Shell.sameObjects_tell _ _ _))
  | subscribe b =>
    obtain ⟨ls, hls⟩ := ht.exists_keyed hr
    exact hw.listen hls _
  | watch t =>
    obtain ⟨os, hos⟩ := ht.exists_observers hr
    exact hw.watch hos
  | unsubscribe n => exact hw.unsubscribe n
  | newMemory _ | read _ | write _ _ | remove _ | setConsent _ _ | close _ | put _ _ _
  | take _ _ =>
    refine hw.of_sameTables (StorageStep.sameTables_perform ?_ sh)
    trivial

end Tracks

/-- After a valid history every context is wired to its active store, once. -/
theorem wired_after {h : History} (hv : h.Valid) : Shell.Wired (h.after α) := by
  induction h with
  | nil => exact Shell.Wired.empty
  | cons s past ih => exact (tracks_after hv.1).wired_perform hv.2 (ih hv.1)

end AppShell
