/-
AppShell/Proofs/Storage/Freshness.lean

What subscribers were told last is what they would read.

While listeners are being told of a change, those that come later still show what
was there before it, and their turn may come after any number of further changes
by callbacks.  `UpToDate` says what holds at every moment: each subscriber that is
watched is still awaited by a telling in progress, or was told last what it would
read now.  Whom the tellings in progress will still reach is the `Outlook`, which
callbacks leave as it is: they settle their own changes before they return.

A change must leave what a subscriber reads as it is, or have the subscriber
awaited (`UpToDate.change`).  A change that goes through a store has the store
announce it (`UpToDate.put`, `UpToDate.grant`), and where a store is installed in
a context, the listeners of the context wait (`UpToDate.install`).  Those who
come, leave or watch make no difference to the others.
-/
import AppShell.Proofs.Storage.Roster

namespace AppShell

open Shell (SameObjects SameData SameTables)

variable {α : Type}

/-- One of the tellings of a subscriber: the first, the second and so on. -/
abbrev Telling := SubscriptionId × Nat

/-- What is asked from some moment on: whose subscribers are watched; how many subscribers there
were, how often each had been told and what one of them may read that was not told since; and
whether a noted telling is excused. -/
structure Outset where
  watched : StoreSource → Prop
  count : Nat
  told : SubscriptionId → Nat
  accepted : SubscriptionId → Binding → Option String → Prop
  lax : Prop

/-- Whom the tellings in progress will still reach: the listeners of a source, depending on its
active store.  The lists that were taken name listeners as they were attached. -/
structure Outlook where
  awaited : StoreSource → Option StoreId → KeyListener → Prop
  listed : StoreSource → KeyListener → Prop
  held : List Object

/-- A subscriber was told last what it would read now; if it was not told, what it reads is
accepted. -/
def Outset.Current (o : Outset) (sh : Shell α) (n : SubscriptionId) (b : Binding) : Prop :=
  match ((sh.received n).drop (o.told n)).getLast? with
  | some v => v = sh.valueOf b.source b.key b.level
  | none => n < o.count → o.accepted n b (sh.valueOf b.source b.key b.level)

/-- Whether a subscriber is up to date depends on what it was told and on what it would read. -/
theorem Outset.Current.congr {o : Outset} {sh sh' : Shell α} {n : SubscriptionId} {b : Binding}
    (h : o.Current sh n b) (hrec : sh'.received n = sh.received n)
    (hvalue : sh'.valueOf b.source b.key b.level = sh.valueOf b.source b.key b.level) :
    o.Current sh' n b := by
  rw [Current, hrec, hvalue]
  exact h

/-- Every subscriber that is watched is awaited, excused, or up to date. -/
structure UpToDate (past : History) (o : Outset) (i : Outlook) (notes : List Telling)
    (sh : Shell α) : Prop extends Sound past sh where
  held : sh.held = i.held
  inUse : ∀ c, c < past.contexts → .context c ∈ i.held
  count : o.count ≤ sh.subscriptions.size
  told : ∀ n, o.told n ≤ (sh.received n).length
  listed : ∀ source l n, i.listed source l → l.records n = true →
    n < sh.subscriptions.size ∧
      ∀ b, sh.subscribedTo n = some b → b.source = source ∧ b.listener n = l
  shown : ∀ n b, sh.subscribedTo n = some b → o.watched b.source →
    i.awaited b.source (sh.activeStore b.source) (b.listener n) ∨
      (o.lax ∧ (n, (sh.received n).length) ∈ notes) ∨ o.Current sh n b

/-! ### Who is listed -/

namespace Sound

variable {past : History} {sh : Shell α} {source : StoreSource} {t : Listeners KeyListener}

/-- The listener of a subscriber is among those that a telling of its source reaches. -/
theorem mem_snapshot (h : Sound past sh) {n : SubscriptionId} {b : Binding}
    (hn : sh.subscribedTo n = some b) (ht : sh.keyedOf b.source = some t) :
    b.listener n ∈ t.snapshot := by
  have hone := h.enrolled.snapshot ht n
  simp only [hn, if_true] at hone
  have hmem : b.listener n ∈ t.snapshot.filter (·.records n) := by
    rw [hone]
    exact List.mem_singleton_self _
  exact (List.mem_filter.1 hmem).1

/-- The source of a subscription has its table of listeners. -/
theorem exists_keyedOf (h : Sound past sh) {n : SubscriptionId} {b : Binding}
    (hn : sh.subscribedTo n = some b) : ∃ t, sh.keyedOf b.source = some t :=
  (h.enrolled.listed n b hn).1

/-- A listener of a source that records for a subscriber is that of the subscriber. -/
theorem of_mem_snapshot (h : Sound past sh) (ht : sh.keyedOf source = some t) {l : KeyListener}
    (hl : l ∈ t.snapshot) {n : SubscriptionId} (hr : l.records n = true) :
    n < sh.subscriptions.size ∧
      ∀ b, sh.subscribedTo n = some b → b.source = source ∧ b.listener n = l := by
  have hone := h.enrolled.snapshot ht n
  have hmem : l ∈ t.snapshot.filter (·.records n) := List.mem_filter.2 ⟨hl, hr⟩
  rw [hone] at hmem
  rcases hn : sh.subscribedTo n with - | b
  · rw [hn] at hmem
    cases hmem
  · refine ⟨h.enrolled.lt_count hn, fun b' hb' => ?_⟩
    cases hb'
    simp only [hn] at hmem
    split at hmem
    · next hs => exact ⟨hs, (List.mem_singleton.1 hmem).symm⟩
    · cases hmem

end Sound

/-! ### Whom the tellings in progress will reach -/

namespace Outlook

/-- The listeners of a source wait in a list. -/
def waiting (i : Outlook) (source : StoreSource) (ls : List KeyListener) : Outlook :=
  { i with awaited := fun source' active l =>
      i.awaited source' active l ∨ source' = source ∧ l ∈ ls }

/-- A list of the listeners of a source was taken. -/
def listing (i : Outlook) (source : StoreSource) (ls : List KeyListener) : Outlook :=
  { i with listed := fun source' l => i.listed source' l ∨ source' = source ∧ l ∈ ls }

/-- A store has something to announce. -/
def announcing (i : Outlook) (s : StoreId) (e : StoreEvent) : Outlook :=
  { i with awaited := fun source active l =>
      i.awaited source active l ∨ active = some s ∧ e.concerns l = true }

/-- A store is about to announce something to the contexts among its observers. -/
def passing (i : Outlook) (s : StoreId) (e : StoreEvent) : Outlook :=
  { i with awaited := fun source active l =>
      i.awaited source active l ∨
        active = some s ∧ e.concerns l = true ∧ ∃ c, source = .context c }

/-- Some of the observers of a store are still to hear what it announces. -/
def relaying (i : Outlook) (s : StoreId) (e : StoreEvent) (os : List StoreObserver) : Outlook :=
  { i with awaited := fun source active l =>
      i.awaited source active l ∨
        active = some s ∧ e.concerns l = true ∧ ∃ c, source = .context c ∧ .relay c ∈ os }

/-- An object is held. -/
def holding (i : Outlook) (o : Object) : Outlook :=
  { i with held := o :: i.held }

end Outlook

/-- After a change everyone who is watched is awaited, or reads what it read before and is awaited
if it was. -/
def Covered (o : Outset) (i : Outlook) (A : StoreSource → Option StoreId → KeyListener → Prop)
    (sh sh' : Shell α) : Prop :=
  ∀ n b, sh.subscribedTo n = some b → o.watched b.source →
    A b.source (sh'.activeStore b.source) (b.listener n) ∨
      sh'.valueOf b.source b.key b.level = sh.valueOf b.source b.key b.level ∧
        (i.awaited b.source (sh.activeStore b.source) (b.listener n) →
          A b.source (sh'.activeStore b.source) (b.listener n))

/-! ### What is kept -/

namespace UpToDate

variable {past : History} {o : Outset} {i j : Outlook} {notes : List Telling} {sh sh' : Shell α}

/-- The outlook may be changed as long as everyone who is awaited stays so. -/
theorem reindex (h : UpToDate past o i notes sh) (hheld : j.held = i.held)
    (hlisted : ∀ source l n, j.listed source l → l.records n = true →
      n < sh.subscriptions.size ∧
        ∀ b, sh.subscribedTo n = some b → b.source = source ∧ b.listener n = l)
    (hawaited : ∀ n b, sh.subscribedTo n = some b →
      i.awaited b.source (sh.activeStore b.source) (b.listener n) →
      j.awaited b.source (sh.activeStore b.source) (b.listener n)) :
    UpToDate past o j notes sh where
  toSound := h.toSound
  held := h.held.trans hheld.symm
  inUse c hc := by
    rw [hheld]
    exact h.inUse c hc
  count := h.count
  told := h.told
  listed := hlisted
  shown n b hn hw := (h.shown n b hn hw).imp_left (hawaited n b hn)

/-- The outlook may be changed on whom it awaits. -/
theorem reawait {A : StoreSource → Option StoreId → KeyListener → Prop}
    (h : UpToDate past o i notes sh)
    (hawaited : ∀ n b, sh.subscribedTo n = some b →
      i.awaited b.source (sh.activeStore b.source) (b.listener n) →
      A b.source (sh.activeStore b.source) (b.listener n)) :
    UpToDate past o { i with awaited := A } notes sh :=
  h.reindex rfl h.listed hawaited

/-- More tellings may be noted. -/
theorem note_telling (h : UpToDate past o i notes sh) (t : Telling) :
    UpToDate past o i (t :: notes) sh where
  toSound := h.toSound
  held := h.held
  inUse := h.inUse
  count := h.count
  told := h.told
  listed := h.listed
  shown n b hn hw := by
    rcases h.shown n b hn hw with ha | ⟨hlax, hmem⟩ | hc
    · exact .inl ha
    · exact .inr (.inl ⟨hlax, List.mem_cons_of_mem t hmem⟩)
    · exact .inr (.inr hc)

/-- A change that tells no one must leave what is read, or have those who read it awaited. -/
theorem change {A : StoreSource → Option StoreId → KeyListener → Prop}
    (h : UpToDate past o i notes sh) (hs : Sound past sh') (hheld : sh'.held = sh.held)
    (hsize : sh.subscriptions.size ≤ sh'.subscriptions.size)
    (hsub : ∀ n b, sh'.subscribedTo n = some b → sh.subscribedTo n = some b)
    (hrec : ∀ n, sh'.received n = sh.received n) (hshown : Covered o i A sh sh') :
    UpToDate past o { i with awaited := A } notes sh' where
  toSound := hs
  held := hheld.trans h.held
  inUse := h.inUse
  count := Nat.le_trans h.count hsize
  told n := by
    rw [hrec]
    exact h.told n
  listed source l n hl hr := by
    obtain ⟨hlt, hb⟩ := h.listed source l n hl hr
    exact ⟨Nat.lt_of_lt_of_le hlt hsize, fun b hn => hb b (hsub n b hn)⟩
  shown n b hn hw := by
    rcases hshown n b (hsub n b hn) hw with ha | ⟨hvalue, hkept⟩
    · exact .inl ha
    · rcases h.shown n b (hsub n b hn) hw with ha | hnoted | hc
      · exact .inl (hkept ha)
      · exact .inr (.inl (by rwa [hrec]))
      · exact .inr (.inr (hc.congr (hrec n) hvalue))

/-- A change that neither tells anyone nor makes a difference to a reader. -/
theorem frame (h : UpToDate past o i notes sh) (hs : Sound past sh') (hheld : sh'.held = sh.held)
    (hsize : sh.subscriptions.size ≤ sh'.subscriptions.size)
    (hsub : ∀ n b, sh'.subscribedTo n = some b → sh.subscribedTo n = some b)
    (hrec : ∀ n, sh'.received n = sh.received n) (hd : SameData sh sh') :
    UpToDate past o i notes sh' := by
  refine h.change hs hheld hsize hsub hrec fun n b _ _ => .inr ⟨hd.valueOf _ _ _, fun ha => ?_⟩
  rwa [hd.activeStore]

/-- A change while no one comes or goes. -/
theorem change_of_sameTables {A : StoreSource → Option StoreId → KeyListener → Prop}
    (h : UpToDate past o i notes sh) (hp : Placed past sh') (ht : SameTables sh sh')
    (hrec : ∀ n, sh'.received n = sh.received n) (hshown : Covered o i A sh sh') :
    UpToDate past o { i with awaited := A } notes sh' := by
  have hs := h.toSound.of_sameTables hp ht fun n _ => hrec n
  refine h.change hs ht.held (Nat.le_of_eq (by rw [ht.subscriptions])) (fun n b hn => ?_) hrec
    hshown
  rwa [h.subscribedTo_of_sameTables ht] at hn

/-- What is neither a telling nor a change of the data or of the tables makes no difference. -/
theorem of_sameTables (h : UpToDate past o i notes sh) (ht : SameTables sh sh')
    (hd : SameData sh sh') (hrec : ∀ n, sh'.received n = sh.received n) :
    UpToDate past o i notes sh' := by
  refine h.change_of_sameTables (h.toPlaced.of_sameGates hd.toSameGates) ht hrec
    fun n b _ _ => .inr ⟨hd.valueOf _ _ _, fun ha => ?_⟩
  rwa [hd.activeStore]

/-- A step on other objects, which tells nobody, leaves everybody up to date. -/
theorem of_sameObjects (h : UpToDate past o i notes sh) (ho : SameObjects sh sh')
    (hrec : ∀ n, sh'.received n = sh.received n) : UpToDate past o i notes sh' :=
  h.of_sameTables (.of_sameObjects ho) (.of_sameObjects ho) hrec

/-- A read tells nobody and changes no entry. -/
theorem read (h : UpToDate past o i notes sh) (source : StoreSource) (key : String)
    (level : ConsentLevel) : UpToDate past o i notes (sh.read source key level).2 :=
  h.of_sameObjects (Shell.sameObjects_read sh source key level) fun n => by
    rw [(Shell.delivers_read (n := n) sh source key level).told, List.append_nil]

/-- A step that changes no data shows each subscriber what it showed before. -/
theorem shown_of_sameData (h : UpToDate past o i notes sh) (hd : SameData sh sh')
    (hrec : ∀ n, sh'.received n = sh.received n) (n : SubscriptionId) (b : Binding)
    (hn : sh.subscribedTo n = some b) (hw : o.watched b.source) :
    i.awaited b.source (sh'.activeStore b.source) (b.listener n) ∨
      (o.lax ∧ (n, (sh'.received n).length) ∈ notes) ∨ o.Current sh' n b := by
  rw [hd.activeStore, hrec]
  exact (h.shown n b hn hw).imp_right (.imp_right fun hc => hc.congr (hrec n) (hd.valueOf _ _ _))

/-- An object may be held on the way: that makes no difference to the subscribers. -/
theorem hold (h : UpToDate past o i notes sh) (ob : Object) :
    UpToDate past o (i.holding ob) notes (sh.hold ob) where
  toSound := h.toSound.hold ob
  held := congrArg (ob :: ·) h.held
  inUse c hc := List.mem_cons_of_mem ob (h.inUse c hc)
  count := h.count
  told := h.told
  listed := h.listed
  shown := h.shown_of_sameData (.of_fields rfl rfl rfl) fun _ => rfl

/-- An object is let go again where the contexts in use are held by others. -/
theorem unhold {ob : Object} (h : UpToDate past o (i.holding ob) notes sh)
    (hu : ∀ c, c < past.contexts → .context c ∈ i.held) : UpToDate past o i notes sh.unhold where
  toSound := h.toSound.unhold fun c hc => by
    rw [h.held]
    exact hu c hc
  held := congrArg List.tail h.held
  inUse := hu
  count := h.count
  told := h.told
  listed := h.listed
  shown := h.shown_of_sameData (.of_fields rfl rfl rfl) fun _ => rfl

end UpToDate

/-! ### What a change does to what is read -/

namespace Shell

variable {sh sh' : Shell α} {source : StoreSource} {key : String} {level : ConsentLevel}

/-- What a binding reads is decided by the store that admits it and by that store's entry. -/
theorem valueOf_congr (ha : sh'.admitted ⟨source, key, level⟩ = sh.admitted ⟨source, key, level⟩)
    (he : ∀ t, sh.admitted ⟨source, key, level⟩ = some t →
      sh'.entry (sh'.mediumOf t) key = sh.entry (sh.mediumOf t) key) :
    sh'.valueOf source key level = sh.valueOf source key level := by
  rw [valueOf_eq, valueOf_eq, ha]
  rcases h : sh.admitted ⟨source, key, level⟩ with - | t
  · rfl
  · exact he t h

/-- A change of an entry is not seen under other keys, nor through other memories. -/
theorem valueOf_putEntry_of_ne (sh : Shell α) {m : Medium} {key' : String} (value : Option String)
    (h : ∀ t i, sh.activeStore source = some t → sh.mediumOf t = .memory i → m = .memory i →
      key' ≠ key) :
    (sh.putEntry m key' value).valueOf source key level = sh.valueOf source key level := by
  have hgates := sameGates_putEntry sh m key' value
  refine valueOf_congr (hgates.admitted _) fun t ht => ?_
  rw [hgates.mediumOf]
  rcases hm : sh.mediumOf t with i | -
  · exact entry_putEntry_of_ne sh (h t i (admitted_eq_some ht).1 hm) value
  · rfl

/-- A change of grants is seen only where the level of the reader flips in its store. -/
theorem valueOf_grant_of_not_mem {s : StoreId} {st : Store} (hs : sh.stores[s]? = some st)
    {levels : List ConsentLevel}
    (h : sh.activeStore source = some s → level ∉ st.consent.transitions (.ofList levels)) :
    (sh.grant s levels).valueOf source key level = sh.valueOf source key level := by
  have hactive : (sh.grant s levels).activeStore source = sh.activeStore source := by
    cases source <;> rfl
  have hmedium : ∀ t, (sh.grant s levels).mediumOf t = sh.mediumOf t := by
    intro t
    rw [mediumOf_eq_getD, mediumOf_eq_getD, medium_grant]
  refine valueOf_congr ?_ fun t _ => by rw [hmedium]; rfl
  simp only [admitted, hactive]
  rcases ha : sh.activeStore source with - | t
  · rfl
  have hadmits : (sh.grant s levels).admits t level = sh.admits t level := by
    simp only [admits, grant, Array.getElem?_modify]
    by_cases hst : s = t
    · subst hst
      have hflips := h ha
      rw [ConsentSet.mem_transitions_iff, Classical.not_not] at hflips
      simp only [hs, if_true, Option.map_some]
      exact hflips.symm
    · simp only [hst, if_false]
  simp only [Option.filter_some, hadmits]

/-- Installing a store in a context changes the active store of that context only. -/
theorem activeStore_install {c : ContextId} {ct : StoreContext} (hc : sh.contexts[c]? = some ct)
    (s : StoreId) (source : StoreSource) :
    (sh.install c ct s).activeStore source =
      if source = .context c then some s else sh.activeStore source := by
  cases source with
  | store t => rfl
  | context d =>
    rw [activeStore, contexts_install, Array.getElem?_modify]
    by_cases hd : c = d
    · subst hd
      rw [if_pos rfl, if_pos rfl, hc]
      rfl
    · rw [if_neg hd, if_neg fun h => hd (StoreSource.context.inj h).symm]
      rfl

/-- A store that is installed in a context is not seen through other sources. -/
theorem valueOf_install_of_ne {c : ContextId} {ct : StoreContext}
    (hc : sh.contexts[c]? = some ct) (s : StoreId) (hsource : source ≠ .context c) :
    (sh.install c ct s).valueOf source key level = sh.valueOf source key level := by
  have hattach := sameData_attachObserver sh s (.relay c)
  have hdetach := sameData_detach
    { (sh.attachObserver s (.relay c)).2 with
      contexts := (sh.attachObserver s (.relay c)).2.contexts.modify c fun ct =>
        { ct with active := s, relay := (sh.attachObserver s (.relay c)).1 } }
    (.observers ct.active) ct.relay
  have hadmits : ∀ t, (sh.install c ct s).admits t level = sh.admits t level := by
    intro t
    exact (hdetach.admits t level).trans (hattach.admits t level)
  refine valueOf_congr ?_ fun t _ => ?_
  · simp only [admitted, activeStore_install hc, if_neg hsource, hadmits]
  · have hmedium : (sh.install c ct s).mediumOf t = sh.mediumOf t :=
      (hdetach.mediumOf t).trans (hattach.mediumOf t)
    rw [hmedium]
    exact (hdetach.entry _ key).trans (hattach.entry _ key)

theorem held_install (sh : Shell α) (c : ContextId) (ct : StoreContext) (s : StoreId) :
    (sh.install c ct s).held = sh.held :=
  held_attachObserver sh s _

theorem log_install (sh : Shell α) (c : ContextId) (ct : StoreContext) (s : StoreId) :
    (sh.install c ct s).log = sh.log :=
  log_attachObserver sh s _

end Shell

/-! ### Changes that are announced -/

/-- No two stores lie over one memory. -/
def History.Apart (past : History) : Prop :=
  ∀ s t i, past.mediumOf s = some (.memory i) → past.mediumOf t = some (.memory i) → s = t

/-- A store that stands on a memory stood on it in the history. -/
theorem Placed.mediumOf {past : History} {sh : Shell α} (h : Placed past sh) {s : StoreId}
    {i : MemoryId} (hs : sh.mediumOf s = .memory i) : past.mediumOf s = some (.memory i) := by
  rw [← h.medium]
  rw [Shell.mediumOf_eq_getD] at hs
  rcases hm : sh.stores[s]?.map Store.medium with - | m
  · rw [hm] at hs
    cases hs
  · rw [hm] at hs
    exact congrArg some hs

namespace UpToDate

variable {past : History} {o : Outset} {i : Outlook} {notes : List Telling} {sh : Shell α}

/-- A write leaves those up to date who are not awaited, when the change covers the others. -/
theorem putEntry {A : StoreSource → Option StoreId → KeyListener → Prop}
    (h : UpToDate past o i notes sh) (m : Medium) (key : String) (value : Option String)
    (hshown : Covered o i A sh (sh.putEntry m key value)) :
    UpToDate past o { i with awaited := A } notes (sh.putEntry m key value) :=
  h.change_of_sameTables (h.toPlaced.of_sameGates (Shell.sameGates_putEntry sh m key value))
    (Shell.sameTables_putEntry sh m key value) (Shell.received_putEntry sh m key value) hshown

/-- A change that is let through has its store announce it.  Those who are watched must not read
it through another store. -/
theorem put (h : UpToDate past o i notes sh) {b : Binding} {s : StoreId}
    (ha : sh.admitted b = some s) (hclean : past.Apart ∨ ∀ source, o.watched source →
      source = b.source) (value : Option String) :
    UpToDate past o (i.announcing s (.written b.key)) notes (sh.put b value) := by
  have hactive := (Shell.admitted_eq_some ha).1
  have hput : sh.put b value = sh.putEntry (sh.mediumOf s) b.key value := by
    rw [Shell.put, ha]
  rw [hput]
  refine h.putEntry (sh.mediumOf s) b.key value fun n b' _ hw => ?_
  rw [(Shell.sameGates_putEntry sh (sh.mediumOf s) b.key value).activeStore]
  by_cases htold : sh.activeStore b'.source = some s ∧ b'.key = b.key
  · exact .inl (.inr ⟨htold.1, beq_iff_eq.2 htold.2⟩)
  · -- a reader of the same key through the same memory reads through the same store
    refine .inr ⟨Shell.valueOf_putEntry_of_ne sh value fun t j ht hm hs hkey => ?_, .inl⟩
    refine htold ⟨?_, hkey.symm⟩
    rcases hclean with hapart | hsource
    · rw [ht, hapart t s j (h.toPlaced.mediumOf hm) (h.toPlaced.mediumOf hs)]
    · rw [hsource _ hw, hactive]

/-- A store announces the levels that flip. -/
theorem grant (h : UpToDate past o i notes sh) {s : StoreId} {st : Store}
    (hs : sh.stores[s]? = some st) (levels : List ConsentLevel) :
    UpToDate past o (i.announcing s (.consentChanged (st.consent.transitions (.ofList levels))))
      notes (sh.grant s levels) := by
  have htables : SameTables sh (sh.grant s levels) :=
    .modify_stores sh s (fun _ => rfl) fun _ => rfl
  refine h.change_of_sameTables (h.toPlaced.grant s levels) htables (fun _ => rfl)
    fun n b _ _ => ?_
  have hactive : (sh.grant s levels).activeStore b.source = sh.activeStore b.source := by
    cases b.source <;> rfl
  rw [hactive]
  by_cases htold : sh.activeStore b.source = some s ∧
      b.level ∈ st.consent.transitions (.ofList levels)
  · exact .inl (.inr ⟨htold.1, List.contains_iff_mem.2 htold.2⟩)
  · exact .inr ⟨Shell.valueOf_grant_of_not_mem hs fun ha hl => htold ⟨ha, hl⟩, .inl⟩

/-- Where a store was installed, those who listen to the context wait to be told. -/
theorem install (h : UpToDate past o i notes sh) {c : ContextId} {ct : StoreContext}
    (hc : sh.contexts[c]? = some ct) {s : StoreId} (hs : s < past.stores) :
    UpToDate past o (i.waiting (.context c) ct.keyed.snapshot) notes (sh.install c ct s) := by
  obtain ⟨hsound, hsub⟩ := h.toSound.install hc hs
  refine h.change hsound (Shell.held_install sh c ct s) ?_ (fun n b hn => hsub ▸ hn)
    (Shell.received_of_log (Shell.log_install sh c ct s)) fun n b hn _ => ?_
  · exact Nat.le_of_eq (congrArg Array.size (Shell.subscriptions_attachObserver sh s _).symm)
  rw [Shell.activeStore_install hc]
  by_cases hb : b.source = .context c
  · have hkeyed : sh.keyedOf b.source = some ct.keyed := hb ▸ Shell.keyedOf_context hc
    exact .inl (.inr ⟨hb, h.toSound.mem_snapshot hn hkeyed⟩)
  · rw [if_neg hb]
    exact .inr ⟨Shell.valueOf_install_of_ne hc s hb, .inl⟩

/-! ### Who comes and goes -/

/-- A new subscriber was told nothing yet, and need not be. -/
theorem subscribe (h : UpToDate past o i notes sh) {b : Binding} (hb : past.HasSource b.source) :
    UpToDate past o i notes (sh.listen b.source (b.listener sh.subscriptions.size)).2 := by
  obtain ⟨hsound, hsub⟩ := h.toSound.listen hb
  have hlog := Shell.log_listen sh b.source (b.listener sh.subscriptions.size)
  have hrec := Shell.received_of_log hlog
  -- nobody is told, and nothing that is read changes
  have hdata := Shell.sameData_listen sh b.source (b.listener sh.subscriptions.size)
  obtain ⟨t, ht⟩ := h.toPlaced.exists_keyed hb
  have hsize : (sh.listen b.source (b.listener sh.subscriptions.size)).2.subscriptions.size
      = sh.subscriptions.size + 1 := (h.enrolled.listen ht).size
  refine ⟨hsound, ?held, h.inUse, ?count, ?told, ?listed, ?shown⟩
  case held => exact (Shell.held_listen sh _ _).trans h.held
  case count => exact hsize ▸ Nat.le_succ_of_le h.count
  case told =>
    intro n
    rw [hrec]
    exact h.told n
  case listed =>
    intro source l n hl hr
    -- those who are listed were there before, so that the new number is none of theirs
    obtain ⟨hlt, hlistener⟩ := h.listed source l n hl hr
    refine ⟨hsize ▸ Nat.lt_succ_of_lt hlt, fun b' hn => hlistener b' ?_⟩
    rw [hsub] at hn
    exact (if_neg (Nat.ne_of_lt hlt)).symm.trans hn
  case shown =>
    intro n b' hn hw
    rw [hsub] at hn
    replace hn : (if n = sh.subscriptions.size then some b else sh.subscribedTo n) = some b' := hn
    by_cases hlast : n = sh.subscriptions.size
    · -- it came after the outset, so that nothing is asked of it until it is told
      subst hlast
      refine .inr (.inr ?_)
      rw [Outset.Current, hrec, h.unheard _ (Nat.le_refl _), List.drop_nil]
      exact fun hlt => absurd (Nat.lt_of_lt_of_le hlt h.count) (Nat.lt_irrefl _)
    · rw [if_neg hlast] at hn
      exact h.shown_of_sameData hdata hrec n b' hn hw

/-- Giving a subscription up leaves the others up to date. -/
theorem unsubscribe (h : UpToDate past o i notes sh) (m : SubscriptionId) :
    UpToDate past o i notes (sh.unsubscribe m) := by
  obtain ⟨hsound, hsub⟩ := h.toSound.unsubscribe m
  refine h.frame hsound ?_ (Nat.le_of_eq (h.enrolled.unsubscribe m).size.symm) (fun n b hn => ?_)
    (Shell.received_of_log (Shell.log_unsubscribe sh m)) (Shell.sameData_unsubscribe sh m)
  · unfold Shell.unsubscribe
    split
    · split
      · exact Shell.held_detach sh _ _
      · rfl
    · rfl
  · simp only [hsub] at hn
    split at hn
    · cases hn
    · exact hn

/-- An observer that watches a store leaves everybody up to date. -/
theorem watch (h : UpToDate past o i notes sh) {s : StoreId} (hs : s < past.stores) :
    UpToDate past o i notes
      (sh.watch s (recordLabel sh.subscriptions.size) sh.subscriptions.size).2 := by
  obtain ⟨hsound, hsub⟩ := h.toSound.watch hs
  obtain ⟨st, hst⟩ := h.toPlaced.exists_store hs
  refine h.frame hsound (Shell.held_attachObserver sh s _) ?_ (fun n b hn => hsub ▸ hn)
    (Shell.received_of_log (Shell.log_attachObserver sh s _)) (Shell.sameData_watch sh s _ _)
  rw [Shell.subscriptions_watch (Shell.observersOf_eq hst), Array.size_push]
  exact Nat.le_succ _

/-- Closing a store leaves everybody up to date. -/
theorem close (h : UpToDate past o i notes sh) (s : StoreId) :
    UpToDate past o i notes (sh.closeStore s) :=
  h.of_sameTables (Shell.sameTables_closeStore sh s) (Shell.sameData_closeStore sh s)
    (Shell.received_closeStore sh s)

end UpToDate

end AppShell
