/-
AppShell/Proofs/Storage/Roster.lean

Who is attached, read off a shell.

`Shell.subscribedTo` finds what a subscriber listens to by its subscription and
the table in which its listener stands; on an enrolled shell this is the roll
(`Enrolled.subscribedTo_eq`).  `Sound past sh` collects what a shell keeps while
the stores and contexts of a history are used, whatever happens to the data: the
objects are in place, every subscriber is enrolled, every context is wired, and
no subscriber that is yet to come was told anything.
-/
import AppShell.Proofs.Storage.Announcing
import AppShell.Proofs.Storage.Delivery

namespace AppShell

variable {α : Type}

/-- The source whose listeners stand in a table. -/
def ListenerTable.source? : ListenerTable → Option StoreSource
  | .keyed s => some (.store s)
  | .context c => some (.context c)
  | _ => none

/-- Exactly the tables of stores and contexts have a source. -/
theorem ListenerTable.source?_eq_some_iff {table : ListenerTable} {source : StoreSource} :
    table.source? = some source ↔ table = source.table := by
  cases table <;> cases source <;> simp [source?, StoreSource.table]

/-- An entry of an ordered table is what is found under its number. -/
theorem Listeners.Ordered.lookup {β : Type} {t : Listeners β} (h : t.Ordered) {number : Nat}
    {a : β} (ha : (number, a) ∈ t.entries) : t.entries.lookup number = some a := by
  rcases hb : t.entries.lookup number with - | b
  · exact absurd (beq_self_eq_true number) (by simpa using List.lookup_eq_none_iff.1 hb _ ha)
  · obtain ⟨front, back, hentries, -⟩ := List.lookup_eq_some_iff.1 hb
    have hmem : (number, b) ∈ t.entries := by simp [hentries]
    rw [h.unique ha hmem]

/-- What a subscriber listens to, as long as it is attached. -/
def Shell.subscribedTo (sh : Shell α) (n : SubscriptionId) : Option Binding := do
  let sub ← sh.subscriptions[n]?.filter Subscription.active
  let source ← sub.table.source?
  let listeners ← sh.keyedOf source
  let l ← listeners.entries.lookup sub.number
  return ⟨source, l.key, l.level⟩

namespace Enrolled

variable {count : Nat} {roll : SubscriptionId → Option Binding} {sh : Shell α}

/-- The roll can be read off the shell. -/
theorem subscribedTo_eq (he : Enrolled count roll sh) : sh.subscribedTo = roll := by
  funext n
  rcases hn : roll n with - | b
  · rcases e : sh.subscriptions[n]? with - | ⟨table, number, active⟩
    · simp [Shell.subscribedTo, e]
    rcases active with - | -
    · simp [Shell.subscribedTo, e, Option.filter_some]
    rcases hs : table.source? with - | source
    · simp [Shell.subscribedTo, e, hs, Option.filter_some]
    · rw [ListenerTable.source?_eq_some_iff.1 hs] at e
      exact absurd e ((he.unlisted n hn).1 source number)
  · obtain ⟨⟨t, ht⟩, number, hnumber, -⟩ := he.listed n b hn
    have hlookup := (he.ordered _ t ht).lookup (he.mem_listener hn hnumber ht)
    have hsource : b.source.table.source? = some b.source :=
      ListenerTable.source?_eq_some_iff.2 rfl
    simp [Shell.subscribedTo, hnumber, hsource, ht, hlookup, Binding.listener, Option.filter_some]

/-- The roll of a shell is the one that can be read off it. -/
theorem self (he : Enrolled count roll sh) :
    Enrolled sh.subscriptions.size sh.subscribedTo sh := by
  rw [he.subscribedTo_eq, he.size]
  exact he

end Enrolled

/-! ### Shells in which the objects of a history are used -/

/-- A grant changes no store's medium. -/
theorem Shell.medium_grant (sh : Shell α) (s : StoreId) (levels : List ConsentLevel) (t : StoreId) :
    (sh.grant s levels).stores[t]?.map Store.medium = sh.stores[t]?.map Store.medium := by
  refine Shell.map_getElem?_modify sh.stores s ?_ t
  intro st
  rfl

open Shell (SameObjects SameGates SameTables Wired)

/-- The stores and contexts of a history are in place. -/
structure Placed (past : History) (sh : Shell α) : Prop where
  stores : sh.stores.size = past.stores
  contexts : sh.contexts.size = past.contexts
  medium : ∀ s : StoreId, sh.stores[s]?.map Store.medium = past.mediumOf s

namespace Placed

variable {past : History} {sh sh' : Shell α}

/-- Objects stay in place in a step that leaves the gates alone. -/
theorem of_sameGates (h : Placed past sh) (hg : SameGates sh sh') : Placed past sh' where
  stores := hg.stores.trans h.stores
  contexts := hg.contexts.trans h.contexts
  medium s := (hg.medium s).trans (h.medium s)

theorem of_sameObjects (h : Placed past sh) (ho : SameObjects sh sh') : Placed past sh' :=
  h.of_sameGates (Shell.SameData.of_sameObjects ho).toSameGates

/-- Every store of the history is there. -/
theorem exists_store (h : Placed past sh) {s : StoreId} (hs : s < past.stores) :
    ∃ st, sh.stores[s]? = some st :=
  ⟨_, Array.getElem?_eq_getElem (h.stores.symm ▸ hs)⟩

/-- Every context of the history is there. -/
theorem exists_context (h : Placed past sh) {c : ContextId} (hc : c < past.contexts) :
    ∃ ct, sh.contexts[c]? = some ct :=
  ⟨_, Array.getElem?_eq_getElem (h.contexts.symm ▸ hc)⟩

/-- Every context that is there is one of the history. -/
theorem lt_contexts (h : Placed past sh) {c : ContextId} {ct : StoreContext}
    (hc : sh.contexts[c]? = some ct) : c < past.contexts := by
  rw [← h.contexts]
  exact (Array.getElem?_eq_some_iff.1 hc).1

/-- A source of the history has its table of listeners. -/
theorem exists_keyed (h : Placed past sh) {source : StoreSource} (hs : past.HasSource source) :
    ∃ t, sh.keyedOf source = some t := by
  cases source with
  | store s =>
    obtain ⟨st, hst⟩ := h.exists_store hs
    exact ⟨st.keyed, Shell.keyedOf_store hst⟩
  | context c =>
    obtain ⟨ct, hct⟩ := h.exists_context hs
    exact ⟨ct.keyed, Shell.keyedOf_context hct⟩

/-- A grant leaves the objects in place. -/
theorem grant (h : Placed past sh) (s : StoreId) (levels : List ConsentLevel) :
    Placed past (sh.grant s levels) where
  stores := Array.size_modify.trans h.stores
  contexts := h.contexts
  medium t := (sh.medium_grant s levels t).trans (h.medium t)

/-- Installing a store in a context leaves the objects in place. -/
theorem install (h : Placed past sh) (c : ContextId) (ct : StoreContext) (s : StoreId) :
    Placed past (sh.install c ct s) := by
  have hattach := h.of_sameGates (Shell.sameData_attachObserver sh s (.relay c)).toSameGates
  have hmove : Placed past { (sh.attachObserver s (.relay c)).2 with
      contexts := (sh.attachObserver s (.relay c)).2.contexts.modify c fun ct =>
        { ct with active := s, relay := (sh.attachObserver s (.relay c)).1 } } :=
    ⟨hattach.stores, Array.size_modify.trans hattach.contexts, hattach.medium⟩
  exact hmove.of_sameGates (Shell.sameData_detach _ (.observers ct.active) ct.relay).toSameGates

end Placed

/-- A shell that tracks a history has the history's objects. -/
theorem Tracks.placed {past : History} {sh : Shell α} (ht : Tracks past sh) : Placed past sh :=
  ⟨ht.stores, ht.contexts, ht.medium⟩

/-- The objects of a history are in place, every subscriber is enrolled and every context wired, and
those who are yet to subscribe were told nothing. -/
structure Sound (past : History) (sh : Shell α) : Prop extends Placed past sh where
  enrolled : Enrolled sh.subscriptions.size sh.subscribedTo sh
  wired : Wired sh
  unheard : ∀ n, sh.subscriptions.size ≤ n → sh.received n = []

namespace Sound

variable {past : History} {sh sh' : Shell α}

/-- A step that changes no table of listeners, and tells only those that come later, leaves the
shell sound. -/
theorem of_sameTables (h : Sound past sh) (hp : Placed past sh') (ht : SameTables sh sh')
    (hn : ∀ n, sh.subscriptions.size ≤ n → sh'.received n = sh.received n) : Sound past sh' where
  toPlaced := hp
  enrolled := (h.enrolled.of_sameTables ht).self
  wired := h.wired.of_sameTables ht
  unheard n hle := by
    rw [ht.subscriptions] at hle
    rw [hn n hle, h.unheard n hle]

/-- Who is subscribed is read off the tables alone. -/
theorem subscribedTo_of_sameTables (h : Sound past sh) (ht : SameTables sh sh') :
    sh'.subscribedTo = sh.subscribedTo :=
  (h.enrolled.of_sameTables ht).subscribedTo_eq

theorem enrolled_of_held (h : Sound past sh) (held : List Object) :
    Enrolled sh.subscriptions.size sh.subscribedTo { sh with held := held } :=
  h.enrolled.of_frame (fun _ => rfl) rfl fun _ _ _ => Iff.rfl

/-- Keeping hold of an object changes nothing that counts here. -/
theorem hold (h : Sound past sh) (o : Object) : Sound past (sh.hold o) where
  toPlaced := ⟨h.stores, h.contexts, h.medium⟩
  enrolled := (h.enrolled_of_held _).self
  wired := ⟨h.wired.ordered, h.wired.relays, h.wired.watchers,
    fun c w hc => List.mem_cons_of_mem o (h.wired.inUse c w hc)⟩
  unheard := h.unheard

/-- An object may be let go of if the contexts stay in use. -/
theorem unhold (h : Sound past sh) (hu : ∀ c, c < past.contexts → .context c ∈ sh.held.tail) :
    Sound past sh.unhold where
  toPlaced := ⟨h.stores, h.contexts, h.medium⟩
  enrolled := (h.enrolled_of_held _).self
  wired := by
    refine ⟨h.wired.ordered, h.wired.relays, h.wired.watchers, fun c w hc => hu c ?_⟩
    obtain ⟨ct, hct, -⟩ := Option.map_eq_some_iff.1 hc
    exact h.lt_contexts hct
  unheard := h.unheard

/-! ### Who comes and goes -/

/-- A subscription under the next number is the one added to the roll. -/
theorem listen (h : Sound past sh) {b : Binding} (hb : past.HasSource b.source) :
    Sound past (sh.listen b.source (b.listener sh.subscriptions.size)).2 ∧
      (sh.listen b.source (b.listener sh.subscriptions.size)).2.subscribedTo =
        fun n => if n = sh.subscriptions.size then some b else sh.subscribedTo n := by
  obtain ⟨t, ht⟩ := h.exists_keyed hb
  have henrolled := h.enrolled.listen ht
  have hgates := (Shell.sameData_listen sh b.source (b.listener sh.subscriptions.size)).toSameGates
  refine ⟨⟨h.of_sameGates hgates, henrolled.self, h.wired.listen ht _, fun n hn => ?_⟩,
    henrolled.subscribedTo_eq⟩
  rw [henrolled.size] at hn
  rw [Shell.received_of_log (Shell.log_listen sh _ _), h.unheard n (Nat.le_of_succ_le hn)]

/-- Giving a subscription up takes it off the roll, and no other one. -/
theorem unsubscribe (h : Sound past sh) (m : SubscriptionId) :
    Sound past (sh.unsubscribe m) ∧
      (sh.unsubscribe m).subscribedTo = fun n => if n = m then none else sh.subscribedTo n := by
  have henrolled := h.enrolled.unsubscribe m
  refine ⟨⟨h.of_sameGates (Shell.sameData_unsubscribe sh m).toSameGates, henrolled.self,
    h.wired.unsubscribe m, fun n hn => ?_⟩, henrolled.subscribedTo_eq⟩
  rw [henrolled.size] at hn
  rw [Shell.received_of_log (Shell.log_unsubscribe sh m), h.unheard n hn]

/-- An observer of a store joins no roll of keyed subscriptions. -/
theorem watch (h : Sound past sh) {s : StoreId} (hs : s < past.stores) :
    Sound past (sh.watch s (recordLabel sh.subscriptions.size) sh.subscriptions.size).2 ∧
      (sh.watch s (recordLabel sh.subscriptions.size) sh.subscriptions.size).2.subscribedTo =
        sh.subscribedTo := by
  obtain ⟨st, hst⟩ := h.exists_store hs
  have hobs := Shell.observersOf_eq hst
  have henrolled : Enrolled (sh.subscriptions.size + 1) sh.subscribedTo
      (sh.watch s (recordLabel sh.subscriptions.size) sh.subscriptions.size).2 :=
    h.enrolled.push (fun source => Shell.keyedOf_attachObserver sh s _ source)
      (Shell.subscriptions_watch hobs _ _)
  refine ⟨⟨h.of_sameGates (Shell.sameData_watch sh s _ _).toSameGates, henrolled.self,
    h.wired.watch hobs, fun n hn => ?_⟩, henrolled.subscribedTo_eq⟩
  rw [henrolled.size] at hn
  exact (Shell.received_of_log (Shell.log_attachObserver sh s _) n).trans
    (h.unheard n (Nat.le_of_succ_le hn))

/-- Another store in a context leaves the roll as it was. -/
theorem install (h : Sound past sh) {c : ContextId} {ct : StoreContext}
    (hc : sh.contexts[c]? = some ct) {s : StoreId} (hs : s < past.stores) :
    Sound past (sh.install c ct s) ∧ (sh.install c ct s).subscribedTo = sh.subscribedTo := by
  obtain ⟨st, hst⟩ := h.exists_store hs
  have hsub : (sh.install c ct s).subscriptions = sh.subscriptions :=
    Shell.subscriptions_attachObserver sh s _
  have henrolled := h.enrolled.of_frame (Shell.keyedOf_install sh c ct s) (by rw [hsub])
    fun n source number => by rw [hsub]
  refine ⟨⟨h.toPlaced.install c ct s, henrolled.self, h.wired.install hc (Shell.observersOf_eq hst),
    fun n hn => ?_⟩, henrolled.subscribedTo_eq⟩
  rw [hsub] at hn
  exact (Shell.received_of_log (Shell.log_attachObserver sh s _) n).trans (h.unheard n hn)

end Sound

/-- Those who are yet to subscribe are owed nothing. -/
theorem History.owed_eq_nil {h : History} (hv : h.Valid) {n : SubscriptionId}
    (hn : h.subscriptions ≤ n) : h.owed α n = [] := by
  induction h with
  | nil => rfl
  | cons s past ih =>
    have hle : History.subscriptions past ≤ n := by
      refine Nat.le_trans ?_ hn
      cases s <;> simp [History.subscriptions]
    have hnone : History.subscribed past n = none := by
      rcases hb : History.subscribed past n with - | b
      · rfl
      · exact absurd ((enrolled_after (α := α) hv.1).lt_count hb) (Nat.not_lt.2 hle)
    rw [History.owed, ih hv.1 hle, hnone]
    rfl

/-- The shell after a valid history is sound. -/
theorem sound_after {h : History} (hv : h.Valid) : Sound h (h.after α) where
  toPlaced := (tracks_after hv).placed
  enrolled := (enrolled_after hv).self
  wired := wired_after hv
  unheard n hn := by
    rw [(enrolled_after hv).size] at hn
    rw [received_after α hv, History.owed_eq_nil hv hn]

end AppShell
