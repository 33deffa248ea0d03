/-
AppShell/Proofs/Storage/Enrolment.lean

Each subscriber is enrolled at its source, once.

`Enrolled count roll sh` says that a subscriber on the roll stands exactly once
among the listeners of its source, under the number that its subscription
remembers, and nowhere else, and that any other subscriber stands nowhere.  A
new subscriber gets a number of its own, and the end of a subscription takes
away exactly the listener with its number.  The roll of a shell after a history
is what the history says (`enrolled_after`).
-/
import AppShell.Proofs.Ids
import AppShell.Proofs.Storage.Wiring

namespace AppShell

variable {α : Type}

theorem recordLabel_injective {m n : SubscriptionId} (h : recordLabel m = recordLabel n) :
    m = n :=
  Ids.toString_injective h

namespace Binding

/-- The listener that a subscriber attaches. -/
def listener (b : Binding) (n : SubscriptionId) : KeyListener :=
  ⟨b.key, b.level, .value (recordLabel n), n⟩

theorem records_listener (b : Binding) (m n : SubscriptionId) :
    (b.listener m).records n = decide (m = n) := by
  by_cases h : m = n
  · subst h
    simp [KeyListener.records, listener]
  · have hlabel : recordLabel m ≠ recordLabel n := fun e => h (recordLabel_injective e)
    simp [KeyListener.records, listener, h, hlabel]

end Binding

/-- The subscribers on the roll stand among the listeners of their sources, once, and nowhere
else; the others stand nowhere. -/
structure Enrolled (count : Nat) (roll : SubscriptionId → Option Binding) (sh : Shell α) :
    Prop where
  size : sh.subscriptions.size = count
  ordered : ∀ source t, sh.keyedOf source = some t → t.Ordered
  listed : ∀ n b, roll n = some b → (∃ t, sh.keyedOf b.source = some t) ∧ ∃ number,
    sh.subscriptions[n]? = some ⟨b.source.table, number, true⟩ ∧
    ∀ source t, sh.keyedOf source = some t →
      (t.entries.filter fun e => e.2.records n) =
        if b.source = source then [(number, b.listener n)] else []
  unlisted : ∀ n, roll n = none →
    (∀ (source : StoreSource) number,
      sh.subscriptions[n]? ≠ some ⟨source.table, number, true⟩) ∧
    ∀ source t, sh.keyedOf source = some t → (t.entries.filter fun e => e.2.records n) = []

namespace Enrolled

variable {count : Nat} {roll : SubscriptionId → Option Binding} {sh sh' : Shell α}

theorem empty : Enrolled 0 (fun _ => none) (Shell.empty : Shell α) where
  size := rfl
  ordered source _ ht := by cases source <;> cases ht
  listed _ _ hn := by cases hn
  unlisted n _ := by
    refine ⟨fun source number e => ?_, fun source t ht => ?_⟩
    · cases e
    · cases source <;> cases ht

theorem lt_count (he : Enrolled count roll sh) {n : SubscriptionId} {b : Binding}
    (hn : roll n = some b) : n < count := by
  obtain ⟨-, number, hnumber, -⟩ := he.listed n b hn
  rw [← he.size]
  exact (Array.getElem?_eq_some_iff.1 hnumber).1

theorem roll_count (he : Enrolled count roll sh) : roll count = none := by
  rcases e : roll count with - | b
  · rfl
  · exact absurd (he.lt_count e) (Nat.lt_irrefl _)

/-- The listener of a subscriber stands under the number of its subscription. -/
theorem mem_listener (he : Enrolled count roll sh) {n : SubscriptionId} {b : Binding}
    (hn : roll n = some b) {number : Nat}
    (hnumber : sh.subscriptions[n]? = some ⟨b.source.table, number, true⟩)
    {t : Listeners KeyListener} (ht : sh.keyedOf b.source = some t) :
    (number, b.listener n) ∈ t.entries := by
  obtain ⟨-, number', hnumber', hlist⟩ := he.listed n b hn
  rw [hnumber'] at hnumber
  cases hnumber
  have hone := hlist b.source t ht
  rw [if_pos rfl] at hone
  have hmem : (number, b.listener n) ∈ t.entries.filter fun e => e.2.records n := by
    rw [hone]
    exact List.mem_singleton_self _
  exact (List.mem_filter.1 hmem).1

/-- A change that keeps the listeners and their subscriptions keeps the enrolment. -/
theorem of_frame (he : Enrolled count roll sh)
    (hk : ∀ source, sh'.keyedOf source = sh.keyedOf source)
    (hsize : sh'.subscriptions.size = sh.subscriptions.size)
    (hn : ∀ (n : SubscriptionId) (source : StoreSource) number,
      sh'.subscriptions[n]? = some ⟨source.table, number, true⟩ ↔
        sh.subscriptions[n]? = some ⟨source.table, number, true⟩) : Enrolled count roll sh' where
  size := hsize.trans he.size
  ordered source t ht := he.ordered source t (by rw [← hk, ht])
  listed n b hb := by
    obtain ⟨⟨t, ht⟩, number, hnumber, hlist⟩ := he.listed n b hb
    refine ⟨⟨t, by rw [hk, ht]⟩, number, (hn n b.source number).2 hnumber, fun source u hu => ?_⟩
    exact hlist source u (by rw [← hk, hu])
  unlisted n hb := by
    obtain ⟨hnumber, hlist⟩ := he.unlisted n hb
    refine ⟨fun source number e => hnumber source number ((hn n source number).1 e), ?_⟩
    exact fun source t ht => hlist source t (by rw [← hk, ht])

theorem of_sameTables (he : Enrolled count roll sh) (h : Shell.SameTables sh sh') :
    Enrolled count roll sh' :=
  he.of_frame h.keyed (by rw [h.subscriptions]) fun n source number => by rw [h.subscriptions]

/-- A new source has no listeners. -/
theorem newSource (he : Enrolled count roll sh) (new : StoreSource)
    (hnew : sh.keyedOf new = none)
    (hk : ∀ source, sh'.keyedOf source = if source = new then some .empty else sh.keyedOf source)
    (hn : sh'.subscriptions = sh.subscriptions) : Enrolled count roll sh' where
  size := by rw [hn, he.size]
  ordered source t ht := by
    rw [hk] at ht
    split at ht
    · cases ht
      exact Listeners.ordered_empty
    · exact he.ordered source t ht
  listed n b hb := by
    obtain ⟨⟨t, ht⟩, number, hnumber, hlist⟩ := he.listed n b hb
    -- the source of a subscriber was there before
    have hold : b.source ≠ new := by
      intro e
      rw [e, hnew] at ht
      cases ht
    refine ⟨⟨t, by rw [hk, if_neg hold, ht]⟩, number, by rw [hn, hnumber], fun source u hu => ?_⟩
    rw [hk] at hu
    by_cases hs : source = new
    · rw [if_pos hs] at hu
      cases hu
      rw [if_neg (hs ▸ hold)]
      rfl
    · rw [if_neg hs] at hu
      exact hlist source u hu
  unlisted n hb := by
    obtain ⟨hnumber, hlist⟩ := he.unlisted n hb
    refine ⟨fun source number => by rw [hn]; exact hnumber source number, fun source t ht => ?_⟩
    rw [hk] at ht
    split at ht
    · cases ht
      rfl
    · exact hlist source t ht

/-- A subscription that is no one's among the subscribers leaves them as they are. -/
theorem push (he : Enrolled count roll sh) (hk : ∀ source, sh'.keyedOf source = sh.keyedOf source)
    {s : StoreId} {number : Nat}
    (hn : sh'.subscriptions = sh.subscriptions.push ⟨.observers s, number, true⟩) :
    Enrolled (count + 1) roll sh' where
  size := by rw [hn, Array.size_push, he.size]
  ordered source t ht := he.ordered source t (by rw [← hk, ht])
  listed n b hb := by
    obtain ⟨⟨t, ht⟩, number, hnumber, hlist⟩ := he.listed n b hb
    -- its subscription is older than the one that is added
    have hlt : n ≠ sh.subscriptions.size := by
      rw [he.size]
      exact Nat.ne_of_lt (he.lt_count hb)
    refine ⟨⟨t, by rw [hk, ht]⟩, number, ?_, fun source u hu => ?_⟩
    · rw [hn, Array.getElem?_push, if_neg hlt, hnumber]
    · exact hlist source u (by rw [← hk, hu])
  unlisted n hb := by
    obtain ⟨hnumber, hlist⟩ := he.unlisted n hb
    refine ⟨fun source number e => ?_, fun source t ht => hlist source t (by rw [← hk, ht])⟩
    rw [hn, Array.getElem?_push] at e
    split at e
    · cases source <;> cases e
    · exact hnumber source number e

/-- A listener that is attached stands behind those of the subscriber that were there. -/
theorem filter_listen {b : Binding} {t : Listeners KeyListener} (hb : sh.keyedOf b.source = some t)
    {m : SubscriptionId} {source : StoreSource} {u : Listeners KeyListener}
    (hu : (sh.listen b.source (b.listener m)).2.keyedOf source = some u) (n : SubscriptionId) :
    ∃ v, sh.keyedOf source = some v ∧ (u.entries.filter fun e => e.2.records n) =
      (v.entries.filter fun e => e.2.records n) ++
        if b.source = source ∧ m = n then [(t.issued + 1, b.listener m)] else [] := by
  rw [(Shell.listen_eq hb _).2] at hu
  by_cases hs : b.source = source
  · rw [if_pos hs] at hu
    cases hu
    refine ⟨t, hs ▸ hb, ?_⟩
    rw [Listeners.filter_insert]
    by_cases hm : m = n <;> simp [hs, hm, Binding.records_listener]
  · rw [if_neg hs] at hu
    exact ⟨u, hu, by simp [hs]⟩

/-- A new subscriber is enrolled at its source. -/
theorem listen (he : Enrolled count roll sh) {b : Binding} {t : Listeners KeyListener}
    (hb : sh.keyedOf b.source = some t) :
    Enrolled (count + 1) (fun n => if n = count then some b else roll n)
      (sh.listen b.source (b.listener count)).2 := by
  obtain ⟨hsub, hkeyed⟩ := Shell.listen_eq hb (b.listener count)
  have hget : ∀ n : SubscriptionId, (sh.listen b.source (b.listener count)).2.subscriptions[n]?
      = if n = count then some ⟨b.source.table, t.issued + 1, true⟩ else sh.subscriptions[n]? := by
    intro n
    rw [hsub, Array.getElem?_push, he.size]
  -- no table goes away when another listener comes
  have hthere : ∀ source, (∃ u, sh.keyedOf source = some u) →
      ∃ u, (sh.listen b.source (b.listener count)).2.keyedOf source = some u := by
    rintro source ⟨u, hu⟩
    rw [hkeyed]
    split
    · exact ⟨_, rfl⟩
    · exact ⟨u, hu⟩
  refine ⟨?size, ?ordered, ?listed, ?unlisted⟩
  case size => rw [hsub, Array.size_push, he.size]
  case ordered =>
    intro source u hu
    rw [hkeyed] at hu
    split at hu
    · cases hu
      exact (he.ordered _ t hb).insert _
    · exact he.ordered source u hu
  case listed =>
    intro n b' hn
    by_cases hlast : n = count
    · -- the new subscriber stood nowhere before
      subst hlast
      rw [if_pos rfl] at hn
      cases hn
      refine ⟨hthere _ ⟨t, hb⟩, t.issued + 1, by rw [hget, if_pos rfl], fun source u hu => ?_⟩
      obtain ⟨v, hv, hfilter⟩ := filter_listen hb hu n
      rw [hfilter, (he.unlisted n he.roll_count).2 source v hv]
      simp
    · -- the others stand where they stood
      rw [if_neg hlast] at hn
      obtain ⟨hsource, number, hnumber, hlist⟩ := he.listed n b' hn
      refine ⟨hthere _ hsource, number, by rw [hget, if_neg hlast, hnumber], fun source u hu => ?_⟩
      obtain ⟨v, hv, hfilter⟩ := filter_listen hb hu n
      rw [hfilter, hlist source v hv]
      simp [Ne.symm hlast]
  case unlisted =>
    intro n hn
    by_cases hlast : n = count
    · rw [if_pos hlast] at hn
      cases hn
    · rw [if_neg hlast] at hn
      obtain ⟨hnumber, hlist⟩ := he.unlisted n hn
      refine ⟨fun source number => ?_, fun source u hu => ?_⟩
      · rw [hget, if_neg hlast]
        exact hnumber source number
      · obtain ⟨v, hv, hfilter⟩ := filter_listen hb hu n
        rw [hfilter, hlist source v hv]
        simp [Ne.symm hlast]

/-- Only the listener of the subscriber that leaves is taken away. -/
theorem filter_detach (he : Enrolled count roll sh) {m : SubscriptionId} {b : Binding}
    (hm : roll m = some b) {number : Nat}
    (hnumber : sh.subscriptions[m]? = some ⟨b.source.table, number, true⟩)
    {source : StoreSource} {u : Listeners KeyListener}
    (hu : (sh.detach b.source.table number).keyedOf source = some u) (n : SubscriptionId) :
    ∃ v, sh.keyedOf source = some v ∧ (u.entries.filter fun e => e.2.records n) =
      if n = m then [] else v.entries.filter fun e => e.2.records n := by
  obtain ⟨-, number', hnumber', hlist⟩ := he.listed m b hm
  rw [hnumber] at hnumber'
  cases hnumber'
  rw [Shell.keyedOf_detach_table] at hu
  by_cases hs : b.source = source
  · subst hs
    rw [if_pos rfl] at hu
    obtain ⟨v, hv, rfl⟩ := Option.map_eq_some_iff.1 hu
    refine ⟨v, hv, ?_⟩
    by_cases hnm : n = m
    · subst hnm
      rw [if_pos rfl, Listeners.filter_erase, hlist _ v hv, if_pos rfl]
      simp
    · -- the listener that is taken away is another subscriber's
      have hother : ∀ i : Nat, (b.listener m).records n = false := by
        intro i
        rw [Binding.records_listener, decide_eq_false (Ne.symm hnm)]
      rw [if_neg hnm]
      exact (he.ordered _ v hv).filter_erase_of_mem (he.mem_listener hm hnumber hv) hother
  · rw [if_neg hs] at hu
    refine ⟨u, hu, ?_⟩
    by_cases hnm : n = m
    · subst hnm
      rw [if_pos rfl, hlist source u hu, if_neg hs]
    · rw [if_neg hnm]

/-- The end of a subscription takes the subscriber off the roll. -/
theorem detach (he : Enrolled count roll sh) {m : SubscriptionId} {b : Binding}
    (hm : roll m = some b) {number : Nat}
    (hnumber : sh.subscriptions[m]? = some ⟨b.source.table, number, true⟩) :
    Enrolled count (fun n => if n = m then none else roll n)
      { sh.detach b.source.table number with
        subscriptions := sh.subscriptions.modify m fun sub => { sub with active := false } } := by
  have hkeyed := Shell.keyedOf_detach_table sh b.source number
  have hget : ∀ n : SubscriptionId, n ≠ m →
      (sh.subscriptions.modify m fun sub => { sub with active := false })[n]?
        = sh.subscriptions[n]? := by
    intro n hn
    rw [Array.getElem?_modify, if_neg (Ne.symm hn)]
  refine ⟨Array.size_modify.trans he.size, ?ordered, ?listed, ?unlisted⟩
  case ordered =>
    intro source u hu
    change (sh.detach b.source.table number).keyedOf source = some u at hu
    rw [hkeyed] at hu
    split at hu
    · obtain ⟨v, hv, rfl⟩ := Option.map_eq_some_iff.1 hu
      exact (he.ordered source v hv).erase number
    · exact he.ordered source u hu
  case listed =>
    intro n b' hn
    by_cases hnm : n = m
    · rw [if_pos hnm] at hn
      cases hn
    · rw [if_neg hnm] at hn
      obtain ⟨⟨u, hu⟩, k, hk, hlist⟩ := he.listed n b' hn
      refine ⟨?_, k, by rw [← hk]; exact hget n hnm, fun source w hw => ?_⟩
      · show ∃ w, (sh.detach b.source.table number).keyedOf b'.source = some w
        rw [hkeyed]
        split
        · exact ⟨u.erase number, by rw [hu]; rfl⟩
        · exact ⟨u, hu⟩
      · obtain ⟨v, hv, hfilter⟩ := he.filter_detach hm hnumber hw n
        rw [hfilter, if_neg hnm]
        exact hlist source v hv
  case unlisted =>
    intro n hn
    refine ⟨fun source k e => ?_, fun source w hw => ?_⟩
    · by_cases hnm : n = m
      · -- the subscription that ended is no longer active
        subst hnm
        change (sh.subscriptions.modify n fun sub => { sub with active := false })[n]? = _ at e
        rw [Array.getElem?_modify, if_pos rfl, hnumber] at e
        exact Bool.noConfusion (congrArg Subscription.active (Option.some.inj e))
      · rw [if_neg hnm] at hn
        apply (he.unlisted n hn).1 source k
        rw [← e]
        exact (hget n hnm).symm
    · obtain ⟨v, hv, hfilter⟩ := he.filter_detach hm hnumber hw n
      rw [hfilter]
      by_cases hnm : n = m
      · rw [if_pos hnm]
      · rw [if_neg hnm] at hn ⊢
        exact (he.unlisted n hn).2 source v hv

theorem unsubscribe (he : Enrolled count roll sh) (m : SubscriptionId) :
    Enrolled count (fun n => if n = m then none else roll n) (sh.unsubscribe m) := by
  have hoff : roll m = none → (fun n => if n = m then none else roll n) = roll := by
    intro hm
    funext n
    by_cases hn : n = m
    · rw [if_pos hn, hn, hm]
    · rw [if_neg hn]
  rcases hb : roll m with - | b
  · rw [hoff hb]
    rcases e : sh.subscriptions[m]? with - | ⟨table, number, active⟩
    · simp only [Shell.unsubscribe, e]
      exact he
    · cases active with
      | false =>
        simp only [Shell.unsubscribe, e]
        exact he
      | true =>
        -- no listener of a source, since it is not on the roll
        have htable : ∀ source : StoreSource, table ≠ source.table := by
          rintro source rfl
          exact (he.unlisted m hb).1 source number e
        have hkeyed : ∀ source, (sh.detach table number).keyedOf source = sh.keyedOf source := by
          intro source
          cases table with
          | keyed s => exact absurd rfl (htable (.store s))
          | context c => exact absurd rfl (htable (.context c))
          | observers s => exact Shell.keyedOf_detach_observers sh s number source
          | queue q => cases source <;> rfl
          | panel p => cases source <;> rfl
        simp only [Shell.unsubscribe, e, if_true]
        refine he.of_frame hkeyed Array.size_modify fun n source number' => ?_
        rw [Array.getElem?_modify]
        by_cases hn : m = n
        · subst hn
          rw [if_pos rfl, e, Option.map_some]
          refine ⟨fun h => ?_, fun h => ?_⟩
          · exact Bool.noConfusion (congrArg Subscription.active (Option.some.inj h))
          · exact absurd (congrArg Subscription.table (Option.some.inj h)) (htable source)
        · rw [if_neg hn]
  · obtain ⟨-, number, hnumber, -⟩ := he.listed m b hb
    simp only [Shell.unsubscribe, hnumber, if_true]
    exact he.detach hb hnumber

end Enrolled

/-! ### Every history keeps the enrolment -/

open Shell (quiet)

/-- A valid step keeps the subscribers enrolled. -/
theorem Enrolled.perform {past : History} {s : StorageStep} {sh : Shell α}
    (hr : past.Refers s) (ht : Tracks past sh)
    (he : Enrolled (History.subscriptions past) (History.subscribed past) sh) :
    Enrolled (History.subscriptions (s :: past)) (History.subscribed (s :: past))
      (s.perform sh) := by
  cases s with
  | newStore m config =>
    refine he.newSource (.store sh.stores.size) ?_ (Shell.keyedOf_addStore sh rfl) rfl
    simp [Shell.keyedOf]
  | newContext t =>
    refine he.newSource (.context sh.contexts.size) ?_ (Shell.keyedOf_addContext sh t) ?_
    · simp [Shell.keyedOf]
    · exact Shell.subscriptions_attachObserver sh t _
  | replace c t =>
    obtain ⟨ct, hct⟩ := ht.exists_context hr.1
    rw [StorageStep.perform, Shell.replaceStore_eq quiet hct]
    have hinstall : Enrolled (History.subscriptions past) (History.subscribed past)
        (sh.install c ct t) := by
      have hsub : (sh.install c ct t).subscriptions = sh.subscriptions :=
        Shell.subscriptions_attachObserver sh t _
      -- the listeners of the context stay in their table when its store is replaced
      exact he.of_frame (Shell.keyedOf_install sh c ct t) (by rw [hsub]) fun n source number => by
        rw [hsub]
    exact hinstall.of_sameTables (.of_sameObjects (Shell.sameObjects_tell _ _ _))
  | subscribe b =>
    obtain ⟨ls, hls⟩ := ht.exists_keyed hr
    show Enrolled _ _ (sh.listen b.source (b.listener sh.subscriptions.size)).2
    rw [he.size]
    exact he.listen hls
  | watch t =>
    obtain ⟨os, hos⟩ := ht.exists_observers hr
    refine he.push (fun source => ?_) (Shell.subscriptions_watch hos _ _)
    exact Shell.keyedOf_attachObserver sh t _ source
  | unsubscribe n => exact he.unsubscribe n
  | newMemory _ | read _ | write _ _ | remove _ | setConsent _ _ | close _ | put _ _ _
  -- what is left touches no table of listeners
  | take _ _ =>
    refine he.of_sameTables (StorageStep.sameTables_perform ?_ sh)
    trivial

/-- After a valid history every subscriber is enrolled at its source, once. -/
theorem enrolled_after {h : History} (hv : h.Valid) :
    Enrolled h.subscriptions h.subscribed (h.after α) := by
  induction h with
  | nil => exact Enrolled.empty
  | cons s past ih => exact (ih hv.1).perform hv.2 (tracks_after hv.1)

end AppShell
