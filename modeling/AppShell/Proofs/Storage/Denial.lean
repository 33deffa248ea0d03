/-
AppShell/Proofs/Storage/Denial.lean

Denied levels hide and protect a key.

A sealed entry can be read at denied levels only, so a step that spares it does
the same whatever the entry is: planting another value there commutes with the
step (`Sealed.perform_withEntry`), and nothing of it shows in the log.

The main statement is `denied_run`: a sparing run leaves the entry as it was and
records the same whatever the entry is, and a later grant brings back what was
read before the levels were denied.
-/
import AppShell.Proofs.Storage.Planted
import AppShell.Proofs.Storage.Sealed

namespace AppShell

open Shell (quiet SameObjects)

variable {α : Type} {D : ConsentLevel → Prop} {m : MemoryId} {key : String} {sh : Shell α}

/-! ### Nothing shows what the entry is -/

namespace Sealed

variable {value : Option String}

/-- What is sealed stays so in a step on other objects. -/
theorem of_sameObjects {sh' : Shell α} (hs : Sealed D m key sh) (h : SameObjects sh sh') :
    Sealed D m key sh' :=
  hs.of_seals (.of_sameObjects h)

/-- A read of the key is denied, so every read finds the same. -/
theorem read_withEntry (hs : Sealed D m key sh) (source : StoreSource) {other : String}
    {level : ConsentLevel} (hl : other = key → D level) :
    (sh.withEntry m key value).read source other level =
      ((sh.read source other level).1, (sh.read source other level).2.withEntry m key value) := by
  have hactive : (sh.withEntry m key value).activeStore source = sh.activeStore source := by
    cases source <;> rfl
  rw [Shell.read, Shell.read, hactive]
  rcases sh.activeStore source with - | s
  · rfl
  · rcases e : sh.stores[s]? with - | st
    · have e' : (sh.withEntry m key value).stores[s]? = none := e
      simp only [Shell.readStore, e, e']
    · have e' : (sh.withEntry m key value).stores[s]? = some st := e
      simp only [Shell.readStore, e, e']
      by_cases ha : st.consent.allows level = true
      · -- what is let through is no look at the sealed entry
        simp only [ha, if_true]
        refine Shell.mediumGet_withEntry sh fun hm hkey => ?_
        rw [hs.denies s st e hm level (hl hkey)] at ha
        cases ha
      · simp only [ha]
        rfl

/-- Listeners are told the same whatever the sealed entry holds. -/
theorem tell_withEntry (hs : Sealed D m key sh) (value : Option String) (source : StoreSource)
    (ls : List KeyListener) (hls : ∀ l ∈ ls, l.key = key → D l.level) :
    Shell.tell quiet source ls (sh.withEntry m key value) =
      (Shell.tell quiet source ls sh).withEntry m key value := by
  induction ls generalizing sh with
  | nil => rfl
  | cons l ls ih =>
    have hdeliver : ∀ v (sh' : Shell α),
        Shell.deliver quiet l v (sh'.withEntry m key value)
          = (Shell.deliver quiet l v sh').withEntry m key value := by
      intro v sh'
      unfold Shell.deliver
      rcases l.report with label | label | i <;> rfl
    -- telling one listener leaves the key sealed for the rest
    have hnext : Sealed D m key
        (Shell.deliver quiet l (sh.read source l.key l.level).1
          (sh.read source l.key l.level).2) := by
      refine hs.of_sameObjects ((Shell.sameObjects_read sh source l.key l.level).trans ?_)
      exact Shell.sameObjects_deliver l _ _
    have hrest := ih hnext fun l' hl' => hls l' (List.mem_cons_of_mem l hl')
    rw [← hdeliver] at hrest
    show Shell.tell quiet source ls (Shell.deliver quiet l
      ((sh.withEntry m key value).read source l.key l.level).1
      ((sh.withEntry m key value).read source l.key l.level).2) = _
    rw [hs.read_withEntry source (hls l List.mem_cons_self)]
    exact hrest

/-- An observer hears the same whatever the sealed entry holds. -/
theorem observe_withEntry (hs : Sealed D m key sh) (e : StoreEvent) (o : StoreObserver) :
    Shell.observe quiet e (sh.withEntry m key value) o =
      (Shell.observe quiet e sh o).withEntry m key value := by
  rcases o with ⟨label, callback⟩ | c
  · cases e <;> rfl
  · simp only [Shell.observe, Shell.relay]
    rcases hc : sh.contexts[c]? with - | ct
    · have hc' : (sh.withEntry m key value).contexts[c]? = none := hc
      simp only [hc']
    · have hc' : (sh.withEntry m key value).contexts[c]? = some ct := hc
      have hkeyed : sh.keyedOf (.context c) = some ct.keyed := Shell.keyedOf_context hc
      have halive : (sh.withEntry m key value).contextAlive c = sh.contextAlive c := rfl
      simp only [hc', halive]
      split
      · have hhold : Sealed D m key (sh.hold (.context c)) :=
          hs.of_seals (.of_sameData_keyed (.of_fields rfl rfl rfl)
            fun source => by cases source <;> rfl)
        have htell := hhold.tell_withEntry value (.context c) (ct.keyed.snapshot.filter e.concerns)
          fun l hl => hs.listeners _ _ hkeyed l (List.mem_filter.1 hl).1
        exact congrArg Shell.unhold htell
      · rfl

/-- Observers hear the same, one after the other. -/
theorem observers_withEntry (hs : Sealed D m key sh) (e : StoreEvent) (os : List StoreObserver) :
    os.foldl (Shell.observe quiet e) (sh.withEntry m key value) =
      (os.foldl (Shell.observe quiet e) sh).withEntry m key value := by
  induction os generalizing sh with
  | nil => rfl
  | cons o os ih =>
    rw [List.foldl_cons, List.foldl_cons, hs.observe_withEntry e o]
    exact ih (hs.of_sameObjects (Shell.sameObjects_observe e sh o))

/-- A store announces the same whatever the sealed entry holds. -/
theorem announce_withEntry (hs : Sealed D m key sh) (s : StoreId) (e : StoreEvent) :
    Shell.announce quiet s e (sh.withEntry m key value) =
      (Shell.announce quiet s e sh).withEntry m key value := by
  rcases hst : sh.stores[s]? with - | st
  · have hst' : (sh.withEntry m key value).stores[s]? = none := hst
    simp only [Shell.announce, hst, hst']
  · have hst' : (sh.withEntry m key value).stores[s]? = some st := hst
    have hkeyed : sh.keyedOf (.store s) = some st.keyed := Shell.keyedOf_store hst
    have htell := hs.tell_withEntry value (.store s) (st.keyed.snapshot.filter e.concerns)
      fun l hl => hs.listeners _ _ hkeyed l (List.mem_filter.1 hl).1
    have hsame := Shell.sameObjects_tell (.store s) (st.keyed.snapshot.filter e.concerns) sh
    have hstores : (Shell.tell quiet (.store s) (st.keyed.snapshot.filter e.concerns) sh).stores[s]?
        = some st := by rw [hsame.stores, hst]
    have hstores' : ((Shell.tell quiet (.store s) (st.keyed.snapshot.filter e.concerns)
        sh).withEntry m key value).stores[s]? = some st := hstores
    simp only [Shell.announce, hst, hst', htell, Shell.tellObservers, hstores, hstores']
    exact (hs.of_sameObjects hsame).observers_withEntry e st.observers.snapshot

/-! ### Sparing steps do the same whatever the entry is -/

/-- A change that is let through touches another entry. -/
theorem changeBinding_withEntry (hs : Sealed D m key sh) {b : Binding}
    (hb : b.key = key → D b.level) (change : Option String) :
    Shell.changeBinding quiet b change (sh.withEntry m key value) =
      (Shell.changeBinding quiet b change sh).withEntry m key value := by
  have hadmitted : (sh.withEntry m key value).admitted b = sh.admitted b := by
    obtain ⟨s | c, other, level⟩ := b <;> rfl
  rw [Shell.changeBinding_eq, Shell.changeBinding_eq, hadmitted]
  rcases e : sh.admitted b with - | t
  · rfl
  · have hne := hs.ne_of_admitted hb e
    show Shell.announce quiet t _ ((sh.withEntry m key value).putEntry (sh.mediumOf t) _ _) = _
    rw [Shell.putEntry_withEntry sh hne]
    exact (hs.of_seals (.putEntry sh hne change)).announce_withEntry t _

/-- New consent is announced alike, as it grants no denied level. -/
theorem setConsent_withEntry (hs : Sealed D m key sh) (hD : ¬ D .strictlyNecessary) (s : StoreId)
    {levels : List ConsentLevel} (hl : ∀ l ∈ levels, ¬ D l) :
    Shell.setConsent quiet s levels (sh.withEntry m key value) =
      (Shell.setConsent quiet s levels sh).withEntry m key value := by
  rcases e : sh.stores[s]? with - | st
  · have e' : (sh.withEntry m key value).stores[s]? = none := e
    simp only [Shell.setConsent, e, e']
  · have e' : (sh.withEntry m key value).stores[s]? = some st := e
    simp only [Shell.setConsent, e, e']
    split
    · rfl
    · exact (hs.of_seals (.grant hD sh s hl)).announce_withEntry s _

/-- A context takes another store alike, as its listeners may not read the entry. -/
theorem replaceStore_withEntry (hs : Sealed D m key sh) (c : ContextId) (s : StoreId) :
    (Shell.replaceStore quiet c s (sh.withEntry m key value)).2 =
      (Shell.replaceStore quiet c s sh).2.withEntry m key value := by
  rcases e : sh.contexts[c]? with - | ct
  · have e' : (sh.withEntry m key value).contexts[c]? = none := e
    simp only [Shell.replaceStore, e, e']
  · have e' : (sh.withEntry m key value).contexts[c]? = some ct := e
    have hkeyed : sh.keyedOf (.context c) = some ct.keyed := Shell.keyedOf_context e
    rw [Shell.replaceStore_eq quiet e, Shell.replaceStore_eq quiet e', Shell.install_withEntry]
    exact (hs.of_seals (.install sh c ct s)).tell_withEntry value (.store s) ct.keyed.snapshot
      (hs.listeners _ _ hkeyed)

/-- A sparing step does the same whatever the entry is. -/
theorem perform_withEntry (hD : ¬ D .strictlyNecessary) (hs : Sealed D m key sh)
    {s : StorageStep} (hsp : s.Spares D m key) (value : Option String) :
    s.perform (sh.withEntry m key value) = (s.perform sh).withEntry m key value := by
  cases s with
  -- the new memory comes behind the one that holds the entry
  | newMemory label =>
    exact congrArg (fun memories => ({ sh with memories } : Shell α))
      (Shell.modify_push sh.memories hs.there _ _)
  | newStore medium config => rfl
  | newContext t =>
    simp only [StorageStep.perform, Shell.addContext, Shell.attachObserver_withEntry]
    rfl
  | read b =>
    rw [StorageStep.perform, Shell.bindingValue, hs.read_withEntry b.source hsp]
    rfl
  | write b text => exact hs.changeBinding_withEntry hsp (some text)
  | remove b => exact hs.changeBinding_withEntry hsp none
  | setConsent t levels => exact hs.setConsent_withEntry hD t hsp
  | replace c t => exact hs.replaceStore_withEntry c t
  | close t => exact Shell.closeStore_withEntry sh t
  | put medium other text => exact Shell.putEntry_withEntry sh hsp (some text)
  | take medium other => exact Shell.putEntry_withEntry sh hsp none
  | subscribe b => exact Shell.listen_withEntry sh b.source _
  | watch t =>
    simp only [StorageStep.perform, Shell.watch, Shell.attachObserver_withEntry]
    rfl
  | unsubscribe n => exact Shell.unsubscribe_withEntry sh n

/-- A sparing run does the same whatever the entry is. -/
theorem replay_withEntry (hD : ¬ D .strictlyNecessary) (hs : Sealed D m key sh) {run : History}
    (hr : ∀ s ∈ run, StorageStep.Spares D m key s) (value : Option String) :
    run.replay (sh.withEntry m key value) = (run.replay sh).withEntry m key value := by
  induction run with
  | nil => rfl
  | cons s past ih =>
    have hpast : ∀ s' ∈ past, StorageStep.Spares D m key s' :=
      fun s' hs' => hr s' (List.mem_cons_of_mem s hs')
    show s.perform (History.replay (sh.withEntry m key value) past) = _
    rw [ih hpast]
    exact (hs.of_seals (hs.seals_replay hD hpast)).perform_withEntry hD (hr s List.mem_cons_self)
      value

end Sealed

/-! ### Revoking and granting again -/

namespace Shell

/-- Setting consent gives the store those levels. -/
theorem stores_setConsent (sh : Shell α) {s : StoreId} {st : Store} (hs : sh.stores[s]? = some st)
    (levels : List ConsentLevel) :
    (setConsent quiet s levels sh).stores[s]? = some { st with consent := .ofList levels } := by
  have hgranted : (sh.stores.modify s fun st => { st with consent := .ofList levels })[s]?
      = some { st with consent := .ofList levels } := by
    rw [Array.getElem?_modify, if_pos rfl, hs]
    rfl
  simp only [setConsent, hs]
  split
  · exact hgranted
  · rw [(sameObjects_announce _ _ _).stores]
    exact hgranted

/-- Setting consent changes no entry. -/
theorem entry_setConsent (sh : Shell α) (s : StoreId) (levels : List ConsentLevel)
    (i : MemoryId) (key : String) :
    (setConsent quiet s levels sh).entry (.memory i) key = sh.entry (.memory i) key := by
  unfold setConsent
  split
  · rfl
  · simp only
    split
    · rfl
    · rw [(sameObjects_announce _ _ _).entry]
      rfl

/-- A store that grants a level reads what its medium holds. -/
theorem read_of_allows {sh : Shell α} {s : StoreId} {st : Store} (hs : sh.stores[s]? = some st)
    {level : ConsentLevel} (hl : st.consent.allows level = true) (key : String) :
    (sh.read (.store s) key level).1 = sh.entry st.medium key := by
  have hvalue := sh.valueOf_eq (.store s) key level
  rw [valueOf] at hvalue
  rw [hvalue]
  simp [admitted, activeStore, admits, hs, hl, mediumOf_eq hs, Option.filter_some]

end Shell

/-- While a set of levels is denied, a run that touches a key at these levels only leaves the entry
as it was and records the same whatever the entry is; a later grant brings back what was read
before. -/
theorem denied_run (α : Type) {D : ConsentLevel → Prop} (hD : ¬ D .strictlyNecessary)
    {m : MemoryId} {key : String} {start : Shell α} (hs : Sealed D m key start) {run : History}
    (hr : ∀ s ∈ run, StorageStep.Spares D m key s) :
    (run.replay start).entry (.memory m) key = start.entry (.memory m) key ∧
    (∀ value : Option String,
      (run.replay (start.withEntry m key value)).entry (.memory m) key = value ∧
      (run.replay (start.withEntry m key value)).log = (run.replay start).log) ∧
    ∀ (before : Shell α) (s : StoreId) (revoked granted : List ConsentLevel) (level : ConsentLevel),
      start = Shell.setConsent quiet s revoked before →
      before.mediumOf s = .memory m → before.admits s level = true → level ∈ granted →
      ((Shell.setConsent quiet s granted (run.replay start)).read (.store s) key level).1 =
        (before.read (.store s) key level).1 := by
  have hrun := hs.seals_replay hD hr
  refine ⟨hrun.entry, fun value => ⟨?_, ?_⟩, ?_⟩
  · rw [hs.replay_withEntry hD hr value, Shell.entry_withEntry, if_pos]
    exact ⟨rfl, (hs.of_seals hrun).there, rfl⟩
  · rw [hs.replay_withEntry hD hr value]
    rfl
  · intro before s revoked granted level hstart hmedium hadmits hlevel
    rcases hst : before.stores[s]? with - | st
    · simp [Shell.admits, hst] at hadmits
    · rw [Shell.mediumOf_eq hst] at hmedium
      have hallows : st.consent.allows level = true := by simpa [Shell.admits, hst] using hadmits
      -- the store is still there after the run, over the same memory
      have hthere : start.stores[s]?.map Store.medium = some (.memory m) := by
        rw [hstart, Shell.stores_setConsent before hst, ← hmedium]
        rfl
      obtain ⟨st', hst', hmedium'⟩ := Option.map_eq_some_iff.1 (hrun.medium s _ hthere)
      have hgranted : (ConsentSet.ofList granted).allows level = true := by
        simp [ConsentSet.allows, hlevel]
      rw [Shell.read_of_allows (Shell.stores_setConsent _ hst' granted) hgranted,
        Shell.read_of_allows hst hallows, hmedium]
      show Shell.entry _ st'.medium key = _
      rw [hmedium', Shell.entry_setConsent, hrun.entry, hstart, Shell.entry_setConsent]

/-- A store that always claims to be granted, over a memory with a secret. -/
def grantedShell : Shell Unit :=
  (History.after Unit
    [ .setConsent 0 [.functionality],
      .newStore (.memory 0) ⟨true, true⟩,
      .newMemory "memory" ]).withEntry 0 "k" (some "secret")

/-- The same after the grant was revoked. -/
def revokedShell : Shell Unit :=
  Shell.setConsent quiet 0 [] grantedShell

/-- Accesses to the secret without a grant. -/
def deniedRun : History :=
  [ .read ⟨.store 0, "k", .functionality⟩,
    .setConsent 0 [.performance],
    .remove ⟨.store 0, "k", .functionality⟩,
    .write ⟨.store 0, "k", .functionality⟩ "other",
    .subscribe ⟨.store 0, "k", .functionality⟩,
    .watch 0 ]

/-- A run under consent for other levels only: the entry outlasts it, and is read once the level is
granted. -/
theorem denied_run_deniedRun :
    (deniedRun.replay revokedShell).entry (.memory 0) "k" = some "secret" ∧
    (deniedRun.replay (revokedShell.withEntry 0 "k" none)).log =
      (deniedRun.replay revokedShell).log ∧
    ((Shell.setConsent quiet 0 [.functionality] (deniedRun.replay revokedShell)).read (.store 0) "k"
      .functionality).1 = some "secret" := by
  have hsealed : Sealed (· = .functionality) 0 "k" revokedShell := by
    refine ⟨by decide, ?_, ?_⟩
    · rintro (- | s) st hst - l rfl
      · cases hst
        rfl
      · cases hst
    · rintro ((- | s) | c) t ht l hl -
      · cases ht
        cases hl
      · cases ht
      · cases ht
  have hspares : ∀ s ∈ deniedRun, s.Spares (· = .functionality) 0 "k" := by
    intro s hs
    simp only [deniedRun, List.mem_cons, List.not_mem_nil, or_false] at hs
    rcases hs with rfl | rfl | rfl | rfl | rfl | rfl <;> simp [StorageStep.Spares]
  obtain ⟨hentry, htrace, hregrant⟩ :=
    denied_run Unit (D := (· = .functionality)) (fun h => ConsentLevel.noConfusion h) hsealed hspares
  refine ⟨hentry.trans (by rfl), (htrace none).2, ?_⟩
  rw [hregrant grantedShell 0 [] [.functionality] .functionality rfl rfl rfl (by simp)]
  rfl

end AppShell
