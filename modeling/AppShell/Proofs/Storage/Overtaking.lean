/-
AppShell/Proofs/Storage/Overtaking.lean

Replacements that overtake one another.

When a store is installed in a context, the listeners of the context are told
one after the other what that store holds.  A callback may install yet another
store and tell them all again; then the first loop goes on with the store that
it installed, which is no longer the active one.  So a listener may keep showing
what a replaced store holds (`shown_after_overtaking`).

The main statement is `shown_or_overtaken`: at the end of a replacement, those
who listen to the context were told last what they would read, unless the last
telling came from a loop that had been overtaken.  No loop is, where callbacks
replace nothing (`shown_of_inPlace`).
-/
import AppShell.Proofs.Storage.Reentry

namespace AppShell

variable {α : Type} {past : History} {c : ContextId} {s : StoreId} {notes : List Telling}
  {sh : Shell α}

/-- From a shell on, those who listen to a context are watched, and must be told something. -/
def Outset.replacing (c : ContextId) (sh : Shell α) : Outset where
  watched source := source = .context c
  count := sh.subscriptions.size
  told n := (sh.received n).length
  accepted _ _ _ := False
  lax := True

/-- While a store is being installed in a context, all who listen to the context wait. -/
theorem Sound.upToDate_install (h : Sound past sh) {ct : StoreContext}
    (hc : sh.contexts[c]? = some ct) (hs : s < past.stores) :
    UpToDate past (.replacing c sh) ((Outlook.idle sh).waiting (.context c) ct.keyed.snapshot) []
      (sh.install c ct s) := by
  -- to begin with, whoever listens to the context waits, whatever it reads
  have hall : UpToDate past (.replacing c sh)
      { Outlook.idle sh with awaited := fun source _ _ => source = .context c } [] sh :=
    { toSound := h
      held := rfl
      inUse := fun _ => h.context_mem_held
      count := Nat.le_refl _
      told := fun _ => Nat.le_refl _
      listed := fun _ _ _ hl => hl.elim
      shown := fun _ _ _ hw => .inl hw }
  have hinstall := hall.install hc hs
  have hkeyed : (sh.install c ct s).keyedOf (.context c) = some ct.keyed := by
    rw [Shell.keyedOf_install, Shell.keyedOf_context hc]
  refine hinstall.reawait fun n b hn ha => .inr ?_
  rcases ha with hb | hmem
  · exact ⟨hb, hinstall.toSound.mem_snapshot hn (hb ▸ hkeyed)⟩
  · exact hmem

/-- A subscriber that had to be told something was told last what it would read. -/
theorem Outset.Current.getLast?_eq {o : Outset} {n : SubscriptionId} {b : Binding}
    (h : o.Current sh n b) (hn : n < o.count)
    (hnot : ¬ o.accepted n b (sh.valueOf b.source b.key b.level)) :
    ((sh.received n).drop (o.told n)).getLast? = some (sh.valueOf b.source b.key b.level) := by
  rcases e : ((sh.received n).drop (o.told n)).getLast? with - | value
  · rw [Current, e] at h
    exact absurd (h hn) hnot
  · rw [h.eq_valueOf e]

/-- At the end of a replacement whose callbacks keep those who wait up to date, every subscriber of
the context that was told something in it was told last what it would read then, unless its last
telling is noted. -/
theorem Sound.getLast?_replaceStore (h : Sound past sh) (hu : past.Uses (.replace c s))
    {act : Shell.Act α} {tr : Answers Telling α}
    (hact : Keeps (UpToDate past (.replacing c sh)) act tr) {n : SubscriptionId} {b : Binding}
    (hold : sh.subscribedTo n = some b)
    (hn : (Shell.replaceStore act c s sh).2.subscribedTo n = some b) (hb : b.source = .context c)
    (hnot : (n, ((Shell.replaceStore act c s sh).2.received n).length) ∉
      (Shell.replaceStations act tr c s [] sh).past []) :
    (((Shell.replaceStore act c s sh).2.received n).drop (sh.received n).length).getLast? =
      some ((Shell.replaceStore act c s sh).2.read b.source b.key b.level).1 := by
  obtain ⟨ct, hct⟩ := h.exists_context hu.1
  have htold := Yields.installedAwaited hact trivial hct (h.upToDate_install hct hu.2)
  rcases htold.last.shown n b hn hb with ha | hnoted | hcurrent
  · exact ha.elim
  · exact absurd hnoted.2 hnot
  · exact hcurrent.getLast?_eq (h.enrolled.lt_count hold) id

/-! ### Callbacks that replace -/

/-- The steps that callbacks may take during a replacement in a context: whatever changes an entry
does so through the context. -/
abbrev ContextStep (past : History) (c : ContextId) :=
  {step : StorageStep // past.Uses step ∧ step.Through (.context c)}

/-- How the steps during a replacement are performed and noted. -/
abbrev ContextStep.conduct (α : Type) (past : History) (c : ContextId) :
    Conduct (ContextStep past c) Telling α :=
  StorageStep.conduct α fun step => past.Uses step ∧ step.Through (.context c)

/-- A replacement whose callbacks are answered. -/
def replacement (hu : past.Uses (.replace c s))
    (answer : Call → Shell α → Course (ContextStep past c) α) : Course (ContextStep past c) α :=
  .step ⟨.replace c s, hu, trivial⟩ answer fun _ => .done

/-- At the end of a replacement, every subscriber of the context that was there before it and still
is was told in it, and last what it would read then, unless the last telling was noted: it came from
a loop whose store had been replaced. -/
theorem shown_or_overtaken (α : Type) {h : History} (hv : h.Valid)
    (setup : Course {step // h.Uses step} α) (hu : h.Uses (.replace c s))
    (answer : Call → Shell α → Course (ContextStep h c) α) {sh₀ sh : Shell α}
    (hsetup : setup.run (StorageStep.conduct α _) (h.after α) = sh₀)
    (hrun : (replacement hu answer).run (ContextStep.conduct α h c) sh₀ = sh)
    (hnotes :
      ((replacement hu answer).stations (ContextStep.conduct α h c) [] sh₀).past [] = notes) :
    ∀ n b, sh₀.subscribedTo n = some b → sh.subscribedTo n = some b → b.source = .context c →
      (n, (sh.received n).length) ∉ notes →
      ((sh.received n).drop (sh₀.received n).length).getLast? =
        some (sh.read b.source b.key b.level).1 := by
  have hsound : Sound h sh₀ := hsetup ▸ (sound_after hv).run setup
  have hact : Keeps (UpToDate h (.replacing c sh₀))
      (fun call sh => (answer call sh).run (ContextStep.conduct α h c) sh)
      (fun call notes sh => (answer call sh).stations (ContextStep.conduct α h c) notes sh) :=
    fun call i notes sh hsh => hsh.run (fun _ hk => hk.1)
      (fun _ hk => .inr fun source (hw : source = .context c) => hw ▸ hk.2)
      (fun _ _ => .inl trivial) (answer call sh)
  subst hrun hnotes
  exact fun n b hold hn hb hnot => hsound.getLast?_replaceStore hu hact hold hn hb hnot

/-- A context around the first of three stores, over a memory each, with two listeners to one
key. -/
def threeStores : History :=
  [ .subscribe ⟨.context 0, "k", .strictlyNecessary⟩,
    .subscribe ⟨.context 0, "k", .strictlyNecessary⟩,
    .newContext 0,
    .newStore (.memory 2) ⟨false, false⟩,
    .newStore (.memory 1) ⟨false, false⟩,
    .newStore (.memory 0) ⟨false, false⟩,
    .put (.memory 2) "k" "c",
    .put (.memory 1) "k" "b",
    .put (.memory 0) "k" "a",
    .newMemory "mc",
    .newMemory "mb",
    .newMemory "ma" ]

/-- The second store is installed, and the first listener installs the third one as soon as it is
told. -/
def overtaking : Course (ContextStep threeStores 0) Unit :=
  replacement (s := 1) (by decide) fun call sh =>
    if call = .turn 0 ∧ sh.received 0 = [some "b"] then
      .step ⟨.replace 0 2, by decide⟩ (fun _ _ => .done) fun _ => .done
    else .done

theorem shown_or_overtaken_overtaking :
    ∃ sh : Shell Unit, overtaking.run (ContextStep.conduct Unit threeStores 0)
        (threeStores.after Unit) = sh ∧
      sh.received 0 = [some "b", some "c"] ∧
      (sh.read (.context 0) "k" .strictlyNecessary).1 = some "c" := by
  obtain ⟨sh, hsh⟩ : ∃ sh : Shell Unit, overtaking.run (ContextStep.conduct Unit threeStores 0)
      (threeStores.after Unit) = sh := ⟨_, rfl⟩
  have hreceived : sh.received 0 = [some "b", some "c"] := by
    subst hsh
    decide
  have hattached : sh.subscribedTo 0 = some ⟨.context 0, "k", .strictlyNecessary⟩ := by
    subst hsh
    decide
  have hnotes : (overtaking.stations (ContextStep.conduct Unit threeStores 0) []
      (threeStores.after Unit)).past [] = [(1, 2)] := by decide
  have hlast := shown_or_overtaken Unit (h := threeStores) (by decide) .done (by decide) _ rfl hsh
    hnotes 0 _ (by decide) hattached rfl (by rw [hreceived]; decide)
  refine ⟨sh, hsh, hreceived, ?_⟩
  rw [hreceived] at hlast
  exact (Option.some.inj hlast).symm

/-- The second listener is left with the text of a store that is not active any more. -/
theorem shown_after_overtaking :
    ∃ sh : Shell Unit, overtaking.run (ContextStep.conduct Unit threeStores 0)
        (threeStores.after Unit) = sh ∧
      (threeStores.after Unit).subscribedTo 1 = some ⟨.context 0, "k", .strictlyNecessary⟩ ∧
      sh.subscribedTo 1 = some ⟨.context 0, "k", .strictlyNecessary⟩ ∧
      (sh.received 1).getLast? = some (some "b") ∧
      (sh.read (.context 0) "k" .strictlyNecessary).1 = some "c" :=
  ⟨_, rfl, by decide, by decide, by decide, by decide⟩

/-! ### Callbacks that replace nothing -/

/-- A store stays the active one of a context, and no telling is noted. -/
def Installed (c : ContextId) (s : StoreId) (_ : Unit) (notes : List Telling) (sh : Shell α) :
    Prop :=
  sh.activeStore (.context c) = some s ∧ notes = []

namespace Installed

variable {act : Shell.Act α} {tr : Answers Telling α} {step : StorageStep}

theorem of_sameGates {sh' : Shell α} (h : Installed c s () notes sh) (hg : Shell.SameGates sh sh') :
    Installed c s () notes sh' :=
  ⟨(hg.activeStore _).trans h.1, h.2⟩

theorem ofData : OfData (Installed (α := α) c s) :=
  fun _ _ _ _ hd h => h.of_sameGates hd.toSameGates

theorem put (h : Installed c s () notes sh) (b : Binding) (value : Option String) :
    Installed c s () notes (sh.put b value) := by
  rw [Shell.put]
  split
  · exact h
  · exact h.of_sameGates (Shell.sameGates_putEntry sh _ _ _)

/-- A step in place keeps the store installed, whatever its callbacks do as long as they keep it. -/
theorem use (hact : Keeps (Installed c s) act tr) (hu : past.Uses step) (hp : step.InPlace)
    (h : Installed c s () notes sh) :
    Yields (Installed c s) () notes (step.stations act tr notes sh) (step.performWith act sh) := by
  cases step with
  | read b =>
    have hread := Shell.sameObjects_read sh b.source b.key b.level
    exact .refl (ofData _ _ _ _ (.of_sameObjects (hread.trans (.note _ _))) h)
  | write b value => exact Yields.changeBinding hact ofData.ofRecords b (some value) notes (h.put b _)
  | remove b => exact Yields.changeBinding hact ofData.ofRecords b none notes (h.put b none)
  | setConsent t levels => exact Yields.setConsent hact ofData.ofRecords t levels (fun _ => h) h
  | close t => exact .refl (ofData _ _ _ _ (Shell.sameData_closeStore sh t) h)
  | subscribe b => exact .refl (ofData _ _ _ _ (Shell.sameData_listen sh _ _) h)
  | watch t => exact .refl (ofData _ _ _ _ (Shell.sameData_watch sh t _ _) h)
  | unsubscribe n => exact .refl (ofData _ _ _ _ (Shell.sameData_unsubscribe sh n) h)
  | replace _ _ | put _ _ _ | take _ _ => exact hp.elim
  | newMemory _ | newStore _ _ | newContext _ => exact hu.elim

theorem tellInstalled (hact : Keeps (Installed c s) act tr) (ls : List KeyListener)
    (h : Installed c s () notes sh) :
    Yields (Installed c s) () notes (Shell.tellInstalledStations act tr c s ls notes sh)
      (Shell.tell act (.store s) ls sh) := by
  refine .fold (fun l notes sh h => ?_) ls h
  have hread : Installed c s () notes (sh.read (.store s) l.key l.level).2 :=
    ofData _ _ _ _ (.of_sameObjects (Shell.sameObjects_read sh _ _ _)) h
  have hnotes : sh.noteOvertaken c s l notes = notes := if_pos h.1
  simp only [hnotes]
  exact .concat notes hread (.deliver hact ofData.ofRecords l _ hread)

/-- No telling of a replacement is noted if callbacks keep its store installed. -/
theorem past_eq_nil (hact : Keeps (Installed c s) act tr) {ct : StoreContext}
    (hc : sh.contexts[c]? = some ct) : (Shell.replaceStations act tr c s [] sh).past [] = [] := by
  have hinstall : Installed c s () [] (sh.install c ct s) :=
    ⟨by rw [Shell.activeStore_install hc, if_pos rfl], rfl⟩
  simp only [Shell.replaceStations, hc]
  exact (Yields.concat [] hinstall (tellInstalled hact _ hinstall)).last.2

end Installed

/-- At the end of a replacement whose callbacks replace no store, every subscriber of the context
that was there before it and still is was told last what it would read then. -/
theorem shown_of_inPlace (α : Type) {h : History} (hv : h.Valid)
    (setup : Course {step // h.Uses step} α) (hu : h.Uses (.replace c s))
    (answer : Call → Shell α →
      Course {step // h.Uses step ∧ step.Through (.context c) ∧ step.InPlace} α) {sh₀ sh : Shell α}
    (hsetup : setup.run (StorageStep.conduct α _) (h.after α) = sh₀)
    (hrun : (Shell.replaceStore (fun call sh => (answer call sh).run (StorageStep.conduct α _) sh)
      c s sh₀).2 = sh) :
    ∀ n b, sh₀.subscribedTo n = some b → sh.subscribedTo n = some b → b.source = .context c →
      ((sh.received n).drop (sh₀.received n).length).getLast? =
        some (sh.read b.source b.key b.level).1 := by
  have hsound : Sound h sh₀ := hsetup ▸ (sound_after hv).run setup
  obtain ⟨ct, hct⟩ := hsound.exists_context hu.1
  have hact : Keeps (UpToDate h (.replacing c sh₀))
      (fun call sh => (answer call sh).run (StorageStep.conduct α _) sh)
      (fun call notes sh => (answer call sh).stations (StorageStep.conduct α _) notes sh) :=
    fun call i notes sh hsh => hsh.run (fun _ hk => hk.1)
      (fun _ hk => .inr fun source (hw : source = .context c) => hw ▸ hk.2.1)
      (fun _ _ => .inl trivial) (answer call sh)
  -- no callback installs another store, so that nothing overtakes the replacement
  have hstays : Keeps (Installed (α := α) c s)
      (fun call sh => (answer call sh).run (StorageStep.conduct α _) sh)
      (fun call notes sh => (answer call sh).stations (StorageStep.conduct α _) notes sh) :=
    fun call i notes sh hsh => (answer call sh).yields
      (fun step _ _ hact _ _ _ h => Installed.use hact step.2.1 step.2.2.2 h) hsh
  subst hrun
  refine fun n b hold hn hb => hsound.getLast?_replaceStore hu hact hold hn hb ?_
  rw [Installed.past_eq_nil hstays hct]
  exact List.not_mem_nil

end AppShell
