/-
AppShell/Proofs/Storage/Delivery.lean

What subscribers are told.

`History.tells` says which steps concern a subscriber: an admitted change of its
key through the store that its source leads to, whatever its level and whoever
made it; a change of the grant of its level there; and, in a context, a
replacement.  `History.owed` lists what a subscriber is told after each of them,
which is what it would read at that moment.

The main statement is `received_after`: after every valid history a subscriber
received exactly what it is owed, nothing more, and in that order.
-/
import AppShell.Proofs.Storage.Enrolment

namespace AppShell

open Shell (quiet SameObjects Delivers Wired)

variable {α : Type}

namespace History

/-- Whether a step concerns those who listen to a binding. -/
def tells (past : History) (b : Binding) : StorageStep → Bool
  | .write b' _ | .remove b' =>
    b'.key == b.key && (past.admitted b').isSome && past.admitted b' == past.target b.source
  | .setConsent s levels =>
    past.target b.source == some s &&
      past.permits s b.level != permits (.setConsent s levels :: past) s b.level
  | .replace c _ => b.source == .context c
  | _ => false

/-- What a subscriber is to be told over a history, the oldest first. -/
def owed (α : Type) (n : SubscriptionId) : History → List (Option String)
  | [] => []
  | s :: past =>
    owed α n past ++ match subscribed past n with
      | some b =>
        if tells past b s then [((after α (s :: past)).read b.source b.key b.level).1] else []
      | none => []

end History

/-- What a subscriber is told of an announcement that may concern it. -/
def Shell.spoken (sh : Shell α) (roll : Option Binding) (concerned : Binding → Bool) :
    List (Option String) :=
  match roll with
  | some b => if concerned b then [sh.valueOf b.source b.key b.level] else []
  | none => []

/-! ### Who hears an announcement -/

theorem flatMap_eq_flatMap_filter {β γ : Type} {f : β → List γ} {p : β → Bool}
    (hf : ∀ x, p x = false → f x = []) (xs : List β) :
    xs.flatMap f = (xs.filter p).flatMap f := by
  induction xs with
  | nil => rfl
  | cons x xs ih =>
    by_cases hx : p x = true
    · rw [List.filter_cons_of_pos hx, List.flatMap_cons, List.flatMap_cons, ih]
    · rw [List.filter_cons_of_neg hx, List.flatMap_cons, ih, hf x (by simpa using hx),
        List.nil_append]

variable {count : Nat} {roll : SubscriptionId → Option Binding} {sh : Shell α}

/-- A subscriber is listed once among the listeners of its source, and nowhere else. -/
theorem Enrolled.snapshot (he : Enrolled count roll sh) {source : StoreSource}
    {t : Listeners KeyListener} (ht : sh.keyedOf source = some t) (n : SubscriptionId) :
    t.snapshot.filter (·.records n) = match roll n with
      | some b => if b.source = source then [b.listener n] else []
      | none => [] := by
  have hmap : t.snapshot.filter (·.records n)
      = (t.entries.filter fun e => e.2.records n).map Prod.snd := by
    rw [Listeners.snapshot, List.filter_map]
    rfl
  rw [hmap]
  rcases hb : roll n with - | b
  · rw [(he.unlisted n hb).2 source t ht]
    rfl
  · obtain ⟨-, number, -, hlist⟩ := he.listed n b hb
    rw [hlist source t ht]
    by_cases hs : b.source = source <;> simp [hs]

/-- What is told to a subscriber among the listeners of a source that are concerned. -/
theorem Enrolled.map_valueOf (he : Enrolled count roll sh) {source : StoreSource}
    {t : Listeners KeyListener} (ht : sh.keyedOf source = some t) (n : SubscriptionId)
    (sh' : Shell α) (p : KeyListener → Bool) :
    (((t.snapshot.filter p).filter (·.records n)).map fun l => sh'.valueOf source l.key l.level)
      = sh'.spoken (roll n) fun b => b.source == source && p (b.listener n) := by
  have hswap : (t.snapshot.filter p).filter (·.records n)
      = (t.snapshot.filter (·.records n)).filter p := by
    rw [List.filter_filter, List.filter_filter]
    exact List.filter_congr fun l _ => Bool.and_comm ..
  rw [hswap, he.snapshot ht]
  rcases roll n with - | ⟨source', key, level⟩
  · rfl
  · by_cases hs : source' = source
    · subst hs
      by_cases hp : p (Binding.listener ⟨source', key, level⟩ n) = true
      · simp [Shell.spoken, hp]
        rfl
      · simp [Shell.spoken, hp]
    · simp [Shell.spoken, hs]

/-- A context is listed once among the observers of its active store, and of no other. -/
theorem Shell.Wired.snapshot (hw : Wired sh) {s : StoreId} {t : Listeners StoreObserver}
    (ht : sh.observersOf s = some t) (c : ContextId) :
    t.snapshot.filter (·.relays c) =
      if sh.activeStore (.context c) = some s then [.relay c] else [] := by
  have hmap : t.snapshot.filter (·.relays c)
      = (t.entries.filter fun e => e.2.relays c).map Prod.snd := by
    rw [Listeners.snapshot, List.filter_map]
    rfl
  rw [hmap, hw.relays s t c ht, Shell.wired, Shell.wireOf, Shell.activeStore]
  rcases hc : sh.contexts[c]? with - | ct
  · rfl
  · by_cases hs : ct.active = s <;> simp [hs]

/-- A context passes an announcement on to its own subscribers. -/
theorem heardBy_relay (he : Enrolled count roll sh) (hw : Wired sh) (n : SubscriptionId)
    (e : StoreEvent) (c : ContextId) :
    sh.heardBy n e (.relay c) =
      sh.spoken (roll n) fun b => b.source == .context c && e.concerns (b.listener n) := by
  rcases hc : sh.contexts[c]? with - | ct
  · -- no one listens to a context that is not there
    simp only [Shell.heardBy, Shell.relayed, hc, Shell.spoken]
    rcases hb : roll n with - | b
    · rfl
    · obtain ⟨⟨t, ht⟩, -⟩ := he.listed n b hb
      have hne : b.source ≠ .context c := by
        intro hs
        rw [hs, Shell.keyedOf, hc] at ht
        cases ht
      simp [hne]
  · have hwire := Shell.wireOf_eq hc
    have hkeyed := Shell.keyedOf_context hc
    simp only [Shell.heardBy, Shell.relayed, hc, hw.alive hwire, if_true]
    exact he.map_valueOf hkeyed n sh e.concerns

/-- The contexts that observe a store pass an announcement on to those of their subscribers whose
context it is the active store of. -/
theorem flatMap_heardBy (he : Enrolled count roll sh) (hw : Wired sh) {s : StoreId}
    {t : Listeners StoreObserver} (ht : sh.observersOf s = some t) (n : SubscriptionId)
    (e : StoreEvent) :
    t.snapshot.flatMap (sh.heardBy n e) = sh.spoken (roll n) fun b =>
      b.source != .store s && sh.activeStore b.source == some s && e.concerns (b.listener n) := by
  rcases hb : roll n with - | ⟨source, key, level⟩
  · rw [Shell.spoken, List.flatMap_eq_nil_iff]
    rintro (⟨label, callback⟩ | c) -
    · rfl
    · rw [heardBy_relay he hw, hb]
      rfl
  · rcases source with s' | c
    · -- a subscriber of a store is told by no context
      have hnone : t.snapshot.flatMap (sh.heardBy n e) = [] := by
        rw [List.flatMap_eq_nil_iff]
        rintro (⟨label, callback⟩ | c) -
        · rfl
        · rw [heardBy_relay he hw, hb]
          rfl
      rw [hnone]
      by_cases hs : s' = s <;> simp [Shell.spoken, Shell.activeStore, hs]
    · -- only the relay of its own context tells it anything
      have hothers : ∀ o : StoreObserver, o.relays c = false → sh.heardBy n e o = [] := by
        rintro (⟨label, callback⟩ | d) ho
        · rfl
        · have hne : c ≠ d := by
            rintro rfl
            simp [StoreObserver.relays] at ho
          rw [heardBy_relay he hw, hb]
          simp [Shell.spoken, hne]
      rw [flatMap_eq_flatMap_filter hothers, hw.snapshot ht c]
      by_cases hs : sh.activeStore (.context c) = some s
      · -- whether the relay passes anything on depends on where the context leads now
        rw [if_pos hs, List.flatMap_singleton, heardBy_relay he hw, hb]
        simp [Shell.spoken, hs]
      · rw [if_neg hs]
        simp [Shell.spoken, hs]

/-- An announcement is told once to each subscriber whose source leads to the store and whom it
concerns. -/
theorem delivers_spoken (he : Enrolled count roll sh) (hw : Wired sh) {s : StoreId} {st : Store}
    (hs : sh.stores[s]? = some st) (n : SubscriptionId) (e : StoreEvent) :
    Delivers n (sh.spoken (roll n) fun b =>
      sh.activeStore b.source == some s && e.concerns (b.listener n))
      sh (Shell.announce quiet s e sh) := by
  have hkeyed := Shell.keyedOf_store hs
  have hobs := Shell.observersOf_eq hs
  have htold := Shell.delivers_announce (n := n) hs e
  rw [he.map_valueOf hkeyed n sh e.concerns, flatMap_heardBy he hw hobs] at htold
  -- a subscriber listens to the store itself or to a context, never to both
  have hsplit : (sh.spoken (roll n) fun b => b.source == .store s && e.concerns (b.listener n)) ++
      (sh.spoken (roll n) fun b =>
        b.source != .store s && sh.activeStore b.source == some s && e.concerns (b.listener n))
      = sh.spoken (roll n) fun b =>
        sh.activeStore b.source == some s && e.concerns (b.listener n) := by
    rcases roll n with - | ⟨source, key, level⟩
    · rfl
    · by_cases hsource : source = .store s
      · simp [Shell.spoken, hsource, Shell.activeStore]
      · simp [Shell.spoken, hsource]
  rw [hsplit] at htold
  exact htold

/-! ### Steps that tell no one -/

namespace Shell

/-- What a subscriber received is read off the log. -/
theorem received_of_log {sh sh' : Shell α} (h : sh'.log = sh.log) (n : SubscriptionId) :
    sh'.received n = sh.received n := by
  rw [received, received, h]

/-- An event that tells a subscriber nothing is not among what it received. -/
theorem received_note_of_none {n : SubscriptionId} {e : Event} (he : Event.toldTo n e = none)
    (sh : Shell α) : (sh.note e).received n = sh.received n := by
  rw [received_note, he, Option.toList_none, List.append_nil]

/-- A write by itself tells nobody. -/
theorem received_putEntry (sh : Shell α) (m : Medium) (key : String) (value : Option String)
    (n : SubscriptionId) : (sh.putEntry m key value).received n = sh.received n := by
  cases value <;> cases m <;> simp only [putEntry, mediumSet, mediumRemove]
  all_goals split
  all_goals first
    | rfl
    | exact received_note_of_none rfl _

/-- Closing a medium tells no subscriber. -/
theorem received_mediumClose (sh : Shell α) (m : Medium) (n : SubscriptionId) :
    (sh.mediumClose m).received n = sh.received n := by
  unfold mediumClose
  split
  · rfl
  · split
    · rfl
    · exact received_note_of_none rfl _

/-- Closing a store tells no subscriber. -/
theorem received_closeStore (sh : Shell α) (s : StoreId) (n : SubscriptionId) :
    (sh.closeStore s).received n = sh.received n := by
  unfold closeStore
  split
  · rfl
  · split
    · rfl
    · split
      · rfl
      · exact received_mediumClose _ _ n

theorem log_attachObserver (sh : Shell α) (s : StoreId) (o : StoreObserver) :
    (sh.attachObserver s o).2.log = sh.log := by
  unfold attachObserver
  split <;> rfl

theorem log_listen (sh : Shell α) (source : StoreSource) (l : KeyListener) :
    (sh.listen source l).2.log = sh.log := by
  cases source <;> simp only [listen] <;> split <;> rfl

theorem log_unsubscribe (sh : Shell α) (n : SubscriptionId) :
    (sh.unsubscribe n).log = sh.log := by
  rcases e : sh.subscriptions[n]? with - | ⟨table, number, active⟩
  · simp only [unsubscribe, e]
  · cases active <;> cases table <;> simp only [unsubscribe, e] <;> rfl

end Shell

/-! ### What one step tells -/

/-- What a telling delivers to a subscriber is what the events that concern it say. -/
theorem Shell.Delivers.received_spoken {sh sh' : Shell α} {n : SubscriptionId}
    {roll : Option Binding} {p : Binding → Bool} (h : Delivers n (sh.spoken roll p) sh sh') :
    sh'.received n = sh.received n ++ sh'.spoken roll p := by
  rw [h.told]
  simp only [Shell.spoken, h.same.valueOf]

theorem Shell.spoken_congr {sh : Shell α} {roll : Option Binding} {p q : Binding → Bool}
    (h : ∀ b, p b = q b) : sh.spoken roll p = sh.spoken roll q := by
  rw [show p = q from funext h]

theorem Shell.spoken_none {sh : Shell α} {roll : Option Binding} {p : Binding → Bool}
    (h : ∀ b, p b = false) : sh.spoken roll p = [] := by
  rcases roll with - | b
  · rfl
  · simp [Shell.spoken, h]

namespace Tracks

variable {past : History} {s : StorageStep}

/-- A write or a removal that is let through is told to those who listen to the key through the
same store; any other is told to nobody. -/
theorem received_access (ht : Tracks past sh) (hw : Wired sh)
    (he : Enrolled past.subscriptions past.subscribed sh) {b' : Binding}
    (hr : past.HasSource b'.source) (value : Option String) (n : SubscriptionId) :
    (Shell.changeBinding quiet b' value sh).received n = sh.received n ++
      (Shell.changeBinding quiet b' value sh).spoken (past.subscribed n) fun b =>
        b'.key == b.key && (past.admitted b').isSome &&
          past.admitted b' == past.target b.source := by
  rw [Shell.changeBinding_eq, ht.admitted hr]
  rcases ha : past.admitted b' with - | t
  · -- a denied change is announced by no store
    rw [Shell.spoken_none, List.append_nil]
    intro b
    simp
  · -- the entry is put first, and announced by the store that let the change through
    have hput := Shell.sameTables_putEntry sh (sh.mediumOf t) b'.key value
    have hframe := Shell.putEntry_frame sh (sh.mediumOf t) b'.key value
    obtain ⟨st, hst⟩ := ht.exists_store (ht.lt_stores hr (Option.filter_eq_some_iff.1 ha).1)
    have hst' : (sh.putEntry (sh.mediumOf t) b'.key value).stores[t]? = some st := by
      rw [hframe]
      exact hst
    have htold := (delivers_spoken (he.of_sameTables hput) (hw.of_sameTables hput) hst' n
      (.written b'.key)).received_spoken
    rw [htold, Shell.received_putEntry]
    refine congrArg (sh.received n ++ ·) (Shell.spoken_congr fun b => ?_)
    have hactive : (sh.putEntry (sh.mediumOf t) b'.key value).activeStore b.source
        = past.target b.source := by
      rw [hframe, ← ht.activeStore]
      rfl
    rw [hactive]
    simp [StoreEvent.concerns, Binding.listener, Bool.and_comm, BEq.comm]

/-- A level flips with a grant if its effective grant differs before and after. -/
theorem contains_transitions (ht : Tracks past sh) {t : StoreId} {st : Store}
    (hst : sh.stores[t]? = some st) (levels : List ConsentLevel) (level : ConsentLevel) :
    (st.consent.transitions (.ofList levels)).contains level =
      (past.permits t level != History.permits (.setConsent t levels :: past) t level) := by
  have hafter : History.permits (.setConsent t levels :: past) t level
      = (ConsentSet.ofList levels).allows level := by
    simp [History.permits, History.granted, ConsentSet.allows]
  rw [hafter, ← ht.consent t st level hst, Bool.eq_iff_iff, List.contains_iff_mem,
    ConsentSet.mem_transitions_iff, bne_iff_ne]

/-- A grant is told to those whose level flips in the store that they listen through. -/
theorem received_setConsent (ht : Tracks past sh) (hw : Wired sh)
    (he : Enrolled past.subscriptions past.subscribed sh) {t : StoreId} (hs : t < past.stores)
    (levels : List ConsentLevel) (n : SubscriptionId) :
    (Shell.setConsent quiet t levels sh).received n = sh.received n ++
      (Shell.setConsent quiet t levels sh).spoken (past.subscribed n) fun b =>
        past.tells b (.setConsent t levels) := by
  obtain ⟨st, hst⟩ := ht.exists_store hs
  -- the levels that flip are those at which the history permits something else than before
  have hflips := fun level => ht.contains_transitions hst levels level
  have hgranted := Shell.SameTables.modify_stores sh t
    (f := fun st => { st with consent := .ofList levels }) (fun _ => rfl) fun _ => rfl
  simp only [Shell.setConsent, hst]
  split
  · -- no level flips
    rename_i hempty
    rw [List.isEmpty_iff] at hempty
    rw [Shell.spoken_none, List.append_nil]
    · rfl
    · intro b
      rw [History.tells, ← hflips, hempty]
      simp
  · have hst' : (sh.stores.modify t fun st => { st with consent := .ofList levels })[t]?
        = some { st with consent := .ofList levels } := by
      rw [Array.getElem?_modify, if_pos rfl, hst]
      rfl
    have htold := (delivers_spoken (he.of_sameTables hgranted) (hw.of_sameTables hgranted) hst' n
      (.consentChanged (st.consent.transitions (.ofList levels)))).received_spoken
    rw [htold]
    refine congrArg (sh.received n ++ ·) (Shell.spoken_congr fun b => ?_)
    rw [History.tells, ← hflips, ← ht.activeStore]
    rfl

/-- A replacement is told to those who listen to the context. -/
theorem received_replace (ht : Tracks past sh)
    (he : Enrolled past.subscriptions past.subscribed sh) {c : ContextId} (hc : c < past.contexts)
    (t : StoreId) (n : SubscriptionId) :
    (Shell.replaceStore quiet c t sh).2.received n = sh.received n ++
      (Shell.replaceStore quiet c t sh).2.spoken (past.subscribed n) fun b =>
        past.tells b (.replace c t) := by
  obtain ⟨ct, hct⟩ := ht.exists_context hc
  have hkeyed := Shell.keyedOf_context hct
  have hactive : (sh.install c ct t).activeStore (.store t)
      = (sh.install c ct t).activeStore (.context c) := by
    simp only [Shell.activeStore, Shell.contexts_install, Array.getElem?_modify, if_true, hct]
    rfl
  -- the listeners are told what the new store holds, which is what the context reads now
  have hvalue : ∀ key level, (sh.install c ct t).valueOf (.store t) key level
      = (sh.install c ct t).valueOf (.context c) key level := by
    intro key level
    rw [Shell.valueOf_eq, Shell.valueOf_eq, Shell.admitted, Shell.admitted, hactive]
  have htold := Shell.delivers_tell (n := n) (.store t) ct.keyed.snapshot (sh.install c ct t)
  have hall := he.map_valueOf hkeyed n (sh.install c ct t) fun _ => true
  rw [List.filter_eq_self.2 fun _ _ => rfl] at hall
  simp only [hvalue, hall] at htold
  rw [Shell.replaceStore_eq quiet hct, htold.received_spoken]
  have hlog : (sh.install c ct t).received n = sh.received n :=
    Shell.received_of_log (Shell.log_attachObserver sh t (.relay c)) n
  rw [hlog]
  refine congrArg (sh.received n ++ ·) (Shell.spoken_congr fun b => ?_)
  rw [History.tells, Bool.and_true]

/-- A valid step tells a subscriber what it reads afterwards, if the step concerns it. -/
theorem received_perform (hr : past.Refers s) (ht : Tracks past sh) (hw : Wired sh)
    (he : Enrolled past.subscriptions past.subscribed sh) (n : SubscriptionId) :
    (s.perform sh).received n = sh.received n ++
      (s.perform sh).spoken (past.subscribed n) fun b => past.tells b s := by
  -- the steps that concern nobody leave what was received
  have hsilent : (∀ b, past.tells b s = false) → (s.perform sh).received n = sh.received n →
      (s.perform sh).received n = sh.received n ++
        (s.perform sh).spoken (past.subscribed n) fun b => past.tells b s := by
    intro htells hsame
    rw [Shell.spoken_none htells, List.append_nil, hsame]
  cases s with
  | write b' value => exact ht.received_access hw he hr (some value) n
  | remove b' => exact ht.received_access hw he hr none n
  | setConsent t levels => exact ht.received_setConsent hw he hr levels n
  | replace c t => exact ht.received_replace he hr.1 t n
  | newMemory label => exact hsilent (fun _ => rfl) rfl
  | newStore m config => exact hsilent (fun _ => rfl) rfl
  | newContext t =>
    exact hsilent (fun _ => rfl) (Shell.received_of_log (Shell.log_attachObserver sh t _) n)
  | read b =>
    refine hsilent (fun _ => rfl) ?_
    have hread := Shell.delivers_read (n := n) sh b.source b.key b.level
    rw [StorageStep.perform, Shell.received_note_of_none rfl, Shell.bindingValue, hread.told,
      List.append_nil]
  | close t => exact hsilent (fun _ => rfl) (Shell.received_closeStore sh t n)
  | put m key value =>
    exact hsilent (fun _ => rfl) (Shell.received_putEntry sh m key (some value) n)
  | take m key => exact hsilent (fun _ => rfl) (Shell.received_putEntry sh m key none n)
  | subscribe b => exact hsilent (fun _ => rfl) (Shell.received_of_log (Shell.log_listen sh _ _) n)
  | watch t =>
    exact hsilent (fun _ => rfl) (Shell.received_of_log (Shell.log_attachObserver sh t _) n)
  | unsubscribe m =>
    exact hsilent (fun _ => rfl) (Shell.received_of_log (Shell.log_unsubscribe sh m) n)

end Tracks

/-- After every valid history, every subscriber received exactly what it is owed. -/
theorem received_after (α : Type) {h : History} (hv : h.Valid) (n : SubscriptionId) :
    (h.after α).received n = h.owed α n := by
  induction h with
  | nil => rfl
  | cons s past ih =>
    have hstep := (tracks_after hv.1).received_perform hv.2 (wired_after hv.1)
      (enrolled_after (α := α) hv.1) n
    show (s.perform (History.after α past)).received n = _
    rw [hstep, ih hv.1]
    rfl

/-- A context is moved to a second store and then, once more, to the same one; the writes to the
first store in between are not told. -/
def swapRun : History :=
  [ .write ⟨.store 1, "k", .functionality⟩ "new",
    .setConsent 1 [.functionality],
    .replace 0 1,
    .write ⟨.store 0, "k", .functionality⟩ "stale",
    .replace 0 1,
    .write ⟨.context 0, "k", .strictlyNecessary⟩ "old",
    .setConsent 0 [.functionality],
    .write ⟨.context 0, "k", .functionality⟩ "denied",
    .subscribe ⟨.context 0, "k", .functionality⟩,
    .newContext 0,
    .newStore (.memory 1) ⟨false, false⟩,
    .newStore (.memory 0) ⟨false, false⟩,
    .newMemory "second",
    .newMemory "first" ]

/-- A subscriber of a context, over two stores: what it was told at each write, grant and swap. -/
theorem received_after_swapRun :
    (swapRun.after Unit).received 0 =
      [none, some "old", none, none, none, some "new"] := by
  rw [received_after Unit (h := swapRun) (by decide) 0]
  rfl

end AppShell
