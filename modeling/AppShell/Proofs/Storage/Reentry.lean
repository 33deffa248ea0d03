/-
AppShell/Proofs/Storage/Reentry.lean

Steps on the storage whose callbacks take steps again.

A step that uses what is there, with callbacks that take such steps to any
depth, keeps those who are watched up to date (`Yields.useAwaited`), and so does
every course of such steps (`UpToDate.run`).

The main statement is `told_last`: as long as no store is replaced and no two
stores lie over one memory, every subscriber that is still attached at the end
of a course was told last what it would read then; and if it was not told in an
operation, what it would read did not change in it.
-/
import AppShell.Proofs.Storage.Telling

namespace AppShell

variable {α : Type} {past : History} {o : Outset} {i : Outlook} {notes : List Telling}
  {sh : Shell α} {step : StorageStep}

/-! ### Steps -/

namespace StorageStep

/-- What a step does to a shell if callbacks answer it. -/
def performWith (act : Shell.Act α) (sh : Shell α) : StorageStep → Shell α
  | .write b value => Shell.setBinding act b value sh
  | .remove b => Shell.clearBinding act b sh
  | .setConsent s levels => Shell.setConsent act s levels sh
  | .replace c s => (Shell.replaceStore act c s sh).2
  | step => step.perform sh

/-- The stations of a step, from the change that it makes on. -/
def stations (act : Shell.Act α) (tr : Answers Telling α) (notes : List Telling) (sh : Shell α) :
    StorageStep → Stations Telling α
  | .write b value => Shell.bindingStations act tr b (some value) notes sh
  | .remove b => Shell.bindingStations act tr b none notes sh
  | .setConsent s levels => Shell.consentStations act tr s levels notes sh
  | .replace c s => Shell.replaceStations act tr c s notes sh
  | _ => []

/-- How the steps of a kind are performed and noted. -/
def conduct (α : Type) (kind : StorageStep → Prop) : Conduct {step // kind step} Telling α where
  perform step act sh := step.1.performWith act sh
  stations step act tr notes sh := step.1.stations act tr notes sh

/-- A step that changes an entry does so through a source. -/
def Through (source : StoreSource) : StorageStep → Prop
  | .write b _ | .remove b => b.source = source
  | .put _ _ _ | .take _ _ => False
  | _ => True

/-- A step neither replaces a store nor changes a medium directly. -/
def InPlace : StorageStep → Prop
  | .replace _ _ | .put _ _ _ | .take _ _ => False
  | _ => True

instance (source : StoreSource) : (step : StorageStep) → Decidable (step.Through source)
  | .write b _ | .remove b => inferInstanceAs (Decidable (b.source = source))
  | .put _ _ _ | .take _ _ => isFalse id
  | .newMemory _ | .newStore _ _ | .newContext _ | .read _ | .setConsent _ _ | .replace _ _
  | .close _ | .subscribe _ | .watch _ | .unsubscribe _ => isTrue trivial

instance : (step : StorageStep) → Decidable step.InPlace
  | .replace _ _ | .put _ _ _ | .take _ _ => isFalse id
  | .newMemory _ | .newStore _ _ | .newContext _ | .read _ | .write _ _ | .remove _
  | .setConsent _ _ | .close _ | .subscribe _ | .watch _ | .unsubscribe _ => isTrue trivial

end StorageStep

/-- A step uses the mediums, stores and contexts of a history, and makes none. -/
def History.Uses (past : History) : StorageStep → Prop
  | .read b | .write b _ | .remove b | .subscribe b => past.HasSource b.source
  | .setConsent s _ | .close s | .watch s => s < past.stores
  | .replace c s => c < past.contexts ∧ s < past.stores
  | .put m _ _ | .take m _ => past.HasMedium m
  | .unsubscribe _ => True
  | .newMemory _ | .newStore _ _ | .newContext _ => False

instance (past : History) : (step : StorageStep) → Decidable (past.Uses step)
  | .read b | .write b _ | .remove b | .subscribe b =>
    inferInstanceAs (Decidable (past.HasSource b.source))
  | .setConsent s _ | .close s | .watch s => inferInstanceAs (Decidable (s < past.stores))
  | .replace c s => inferInstanceAs (Decidable (c < past.contexts ∧ s < past.stores))
  | .put m _ _ | .take m _ => inferInstanceAs (Decidable (past.HasMedium m))
  | .unsubscribe _ => isTrue trivial
  | .newMemory _ | .newStore _ _ | .newContext _ => isFalse id

namespace Yields

variable {act : Shell.Act α} {tr : Answers Telling α}

theorem changeAwaited (hact : Keeps (UpToDate past o) act tr) {b : Binding}
    (hclean : past.Apart ∨ ∀ source, o.watched source → source = b.source) (value : Option String)
    (h : UpToDate past o i notes sh) :
    Yields (UpToDate past o) i notes (Shell.bindingStations act tr b value notes sh)
      (Shell.changeBinding act b value sh) := by
  rw [Shell.changeBinding_eq, Shell.bindingStations]
  rcases ha : sh.admitted b with - | s
  · -- a change that is denied changes nothing
    have hput : sh.put b value = sh := by rw [Shell.put, ha]
    rw [hput]
    exact concat notes h (.refl h)
  · -- the entry is there before anybody is told, so that it is a station of its own
    have hput := h.put ha hclean value
    obtain ⟨-, st, hst, -⟩ := Shell.admitted_eq_some ha
    have hstores : (sh.put b value).stores[s]? = some st := by
      rw [Shell.put, ha]
      show (sh.putEntry (sh.mediumOf s) b.key value).stores[s]? = some st
      rw [Shell.putEntry_frame, hst]
    have htold := announceAwaited hact hstores hput
    simp only [Shell.put, ha] at hput htold ⊢
    exact concat notes hput htold

theorem consentAwaited (hact : Keeps (UpToDate past o) act tr) {s : StoreId} (hs : s < past.stores)
    (levels : List ConsentLevel) (h : UpToDate past o i notes sh) :
    Yields (UpToDate past o) i notes (Shell.consentStations act tr s levels notes sh)
      (Shell.setConsent act s levels sh) := by
  obtain ⟨st, hst⟩ := h.toPlaced.exists_store hs
  have hgrant := h.grant hst levels
  -- the grant is in force before anybody is told
  have hst' : (sh.grant s levels).stores[s]? = some { st with consent := .ofList levels } := by
    rw [Shell.grant, Array.getElem?_modify, if_pos rfl, hst]
    rfl
  simp only [Shell.consentStations, Shell.setConsent, hst]
  refine concat notes hgrant ?_
  split
  · -- no level flips, and no one waits
    rename_i hempty
    rw [List.isEmpty_iff.1 hempty] at hgrant
    exact .refl (hgrant.reawait fun n b _ ha =>
      ha.resolve_right fun hnone => absurd hnone.2 Bool.false_ne_true)
  · exact announceAwaited hact hst' hgrant

/-- A step that uses what is there keeps those who are watched up to date. -/
theorem useAwaited (hact : Keeps (UpToDate past o) act tr) (hu : past.Uses step)
    (hclean : past.Apart ∧ step.InPlace ∨ ∀ source, o.watched source → step.Through source)
    (hlax : o.lax ∨ step.InPlace) (h : UpToDate past o i notes sh) :
    Yields (UpToDate past o) i notes (step.stations act tr notes sh)
      (step.performWith act sh) := by
  cases step with
  | read b =>
    have hread := h.read b.source b.key b.level
    exact .refl (hread.of_sameObjects (.note _ _) fun n => Shell.received_note_of_none rfl _)
  | write b value =>
    exact changeAwaited hact (hclean.imp And.left fun hw source hs => (hw source hs).symm)
      (some value) h
  | remove b =>
    exact changeAwaited hact (hclean.imp And.left fun hw source hs => (hw source hs).symm) none h
  | setConsent s levels => exact consentAwaited hact hu levels h
  | replace c s => exact replaceAwaited hact (hlax.resolve_right id) hu.1 hu.2 h
  | close s => exact .refl (h.close s)
  | subscribe b => exact .refl (h.subscribe hu)
  | watch s => exact .refl (h.watch hu)
  | unsubscribe n => exact .refl (h.unsubscribe n)
  | put m key value =>
    -- no store announces it, so no one may be watched
    have hnone := hclean.resolve_left And.right
    exact .refl (h.putEntry m key (some value) fun _ _ _ hw => (hnone _ hw).elim)
  | take m key =>
    have hnone := hclean.resolve_left And.right
    exact .refl (h.putEntry m key none fun _ _ _ hw => (hnone _ hw).elim)
  | newMemory _ | newStore _ _ | newContext _ => exact hu.elim

end Yields

/-! ### Courses -/

/-- No telling is in progress. -/
def Outlook.idle (sh : Shell α) : Outlook :=
  ⟨fun _ _ _ => False, fun _ _ => False, sh.held⟩

theorem Sound.context_mem_held (h : Sound past sh) {c : ContextId} (hc : c < past.contexts) :
    .context c ∈ sh.held := by
  obtain ⟨ct, hct⟩ := h.exists_context hc
  exact h.wired.inUse c _ (Shell.wireOf_eq hct)

/-- Where no telling is in progress, those who are watched must be up to date. -/
theorem Sound.upToDate (h : Sound past sh) (hcount : o.count ≤ sh.subscriptions.size)
    (htold : ∀ n, o.told n ≤ (sh.received n).length)
    (hcurrent : ∀ n b, sh.subscribedTo n = some b → o.watched b.source → o.Current sh n b) :
    UpToDate past o (.idle sh) [] sh where
  toSound := h
  held := rfl
  inUse _ := h.context_mem_held
  count := hcount
  told := htold
  listed _ _ _ hl := hl.elim
  shown n b hn hw := .inr (.inr (hcurrent n b hn hw))

/-- A course of steps that use what is there keeps those who are watched up to date. -/
theorem UpToDate.run {kind : StorageStep → Prop} (hu : ∀ step, kind step → past.Uses step)
    (hclean : ∀ step, kind step →
      past.Apart ∧ step.InPlace ∨ ∀ source, o.watched source → step.Through source)
    (hlax : ∀ step, kind step → o.lax ∨ step.InPlace)
    (course : Course {step // kind step} α) (h : UpToDate past o i notes sh) :
    Yields (UpToDate past o) i notes (course.stations (StorageStep.conduct α kind) notes sh)
      (course.run (StorageStep.conduct α kind) sh) :=
  course.yields (fun step _ _ hact _ _ _ h =>
    Yields.useAwaited hact (hu _ step.2) (hclean _ step.2) (hlax _ step.2) h) h

/-- No subscriber is watched. -/
def Outset.unwatched : Outset where
  watched _ := False
  count := 0
  told _ := 0
  accepted _ _ _ := True
  lax := True

/-- Courses of steps that use what is there keep a shell sound. -/
theorem Sound.run (h : Sound past sh) (course : Course {step // past.Uses step} α) :
    Sound past (course.run (StorageStep.conduct α _) sh) := by
  have hstart : UpToDate past .unwatched (.idle sh) [] sh :=
    h.upToDate (Nat.zero_le _) (fun _ => Nat.zero_le _) fun _ _ _ => False.elim
  have hrun := hstart.run (fun _ => id) (fun _ _ => .inr fun _ => False.elim)
    (fun _ _ => .inl trivial) course
  exact hrun.last.toSound

/-! ### What is shown at the end -/

/-- From a shell on, all subscribers are watched, and what they read there is accepted. -/
def Outset.since (sh : Shell α) : Outset where
  watched _ := True
  count := sh.subscriptions.size
  told n := (sh.received n).length
  accepted _ b value := value = sh.valueOf b.source b.key b.level
  lax := False

theorem Sound.upToDate_since (h : Sound past sh) : UpToDate past (.since sh) (.idle sh) [] sh := by
  refine h.upToDate (Nat.le_refl _) (fun _ => Nat.le_refl _) fun n b _ _ => ?_
  have hnone : (sh.received n).drop ((Outset.since sh).told n) = [] := List.drop_length
  rw [Outset.Current, hnone]
  exact fun _ => rfl

theorem UpToDate.current {sh₀ : Shell α} (h : UpToDate past o (.idle sh₀) notes sh)
    (hstrict : ¬ o.lax) {n : SubscriptionId} {b : Binding} (hn : sh.subscribedTo n = some b)
    (hw : o.watched b.source) : o.Current sh n b := by
  rcases h.shown n b hn hw with ha | hnoted | hc
  · exact ha.elim
  · exact absurd hnoted.1 hstrict
  · exact hc

/-- The last thing that a subscriber was told is what it would read. -/
theorem Outset.Current.eq_valueOf {n : SubscriptionId} {b : Binding} (h : o.Current sh n b)
    {value : Option String}
    (hvalue : ((sh.received n).drop (o.told n)).getLast? = some value) :
    value = sh.valueOf b.source b.key b.level := by
  rw [Current, hvalue] at h
  exact h

theorem Outset.Current.accepts {n : SubscriptionId} {b : Binding} (h : o.Current sh n b)
    (hn : n < o.count) (hsame : (sh.received n).length ≤ o.told n) :
    o.accepted n b (sh.valueOf b.source b.key b.level) := by
  rw [Current, List.drop_eq_nil_of_le hsame] at h
  exact h hn

/-- After any course that leaves the active stores in place, with callbacks that take steps to any
depth, every subscriber that is attached and was told something in it was told last what it would
read.  If it subscribed before an operation at the end of the course and was told nothing in that,
what it would read did not change.  No two stores lie over one memory; what happened before the
course does not matter. -/
theorem told_last (α : Type) {h : History} (hv : h.Valid) (ha : h.Apart)
    (setup : Course {step // h.Uses step} α)
    (before operation : Course {step // h.Uses step ∧ step.InPlace} α) {sh₁ sh₀ sh : Shell α}
    (hsetup : setup.run (StorageStep.conduct α _) (h.after α) = sh₁)
    (hbefore : before.run (StorageStep.conduct α _) sh₁ = sh₀)
    (hoperation : operation.run (StorageStep.conduct α _) sh₀ = sh) :
    ∀ n b, sh.subscribedTo n = some b →
      (∀ value, ((sh.received n).drop (sh₁.received n).length).getLast? = some value →
        value = (sh.read b.source b.key b.level).1) ∧
      (n < sh₀.subscriptions.size → sh.received n = sh₀.received n →
        (sh.read b.source b.key b.level).1 = (sh₀.read b.source b.key b.level).1) := by
  intro n b hn
  have hrun : ∀ {o : Outset} {i : Outlook} {notes : List Telling} {sh : Shell α}
      (course : Course {step // h.Uses step ∧ step.InPlace} α), UpToDate h o i notes sh →
      ∃ notes, UpToDate h o i notes (course.run (StorageStep.conduct α _) sh) :=
    fun course hsh => ⟨_, (hsh.run (fun _ hk => hk.1) (fun _ hk => .inl ⟨ha, hk.2⟩)
      (fun _ hk => .inr hk.2) course).last⟩
  have hsound : Sound h sh₁ := hsetup ▸ (sound_after hv).run setup
  -- the whole course for the first part, the operation alone for the second one
  obtain ⟨notes₀, hsh₀⟩ := hrun before hsound.upToDate_since
  rw [hbefore] at hsh₀
  obtain ⟨notes, hsh⟩ := hrun operation hsh₀
  obtain ⟨notes', hsh'⟩ := hrun operation hsh₀.toSound.upToDate_since
  rw [hoperation] at hsh hsh'
  refine ⟨fun value hvalue => (hsh.current id hn trivial).eq_valueOf hvalue, fun hlt hsame => ?_⟩
  exact (hsh'.current id hn trivial).accepts hlt (Nat.le_of_eq (congrArg List.length hsame))

/-- A store over a memory and a context around it, with a listener to one key of each. -/
def sharedKey : History :=
  [ .subscribe ⟨.context 0, "k", .strictlyNecessary⟩,
    .subscribe ⟨.store 0, "k", .strictlyNecessary⟩,
    .newContext 0,
    .newStore (.memory 0) ⟨false, false⟩,
    .newMemory "m" ]

theorem apart_sharedKey : sharedKey.Apart := by
  have hfirst : ∀ s m, sharedKey.mediumOf s = some m → s = 0 := by
    intro s m hs
    by_cases h : s = 0
    · exact h
    · simp [sharedKey, History.mediumOf, History.stores, h] at hs
  intro s t i hs ht
  rw [hfirst s _ hs, hfirst t _ ht]

/-- The listener to the store corrects the first text that it is told, before the context passes
that text on. -/
def correction : Course {step // sharedKey.Uses step ∧ step.InPlace} Unit :=
  .step ⟨.write ⟨.context 0, "k", .strictlyNecessary⟩ "draft", by decide⟩
    (fun call sh =>
      if call = .turn 0 ∧ sh.received 0 = [some "draft"] then
        .step ⟨.write ⟨.store 0, "k", .strictlyNecessary⟩ "final", by decide⟩
          (fun _ _ => .done) fun _ => .done
      else .done)
    fun _ => .done

theorem told_last_correction :
    ∃ sh : Shell Unit, correction.run (StorageStep.conduct Unit _) (sharedKey.after Unit) = sh ∧
      sh.received 1 = [some "final", some "final"] ∧
      (sh.read (.context 0) "k" .strictlyNecessary).1 = some "final" := by
  obtain ⟨sh, hsh⟩ : ∃ sh : Shell Unit,
      correction.run (StorageStep.conduct Unit _) (sharedKey.after Unit) = sh := ⟨_, rfl⟩
  have hreceived : sh.received 1 = [some "final", some "final"] := by
    subst hsh
    decide
  have hattached : sh.subscribedTo 1 = some ⟨.context 0, "k", .strictlyNecessary⟩ := by
    subst hsh
    decide
  obtain ⟨hlast, -⟩ :=
    told_last Unit (by decide) apart_sharedKey .done .done correction rfl rfl hsh 1 _ hattached
  refine ⟨sh, hsh, hreceived, (hlast (some "final") ?_).symm⟩
  rw [hreceived]
  decide

end AppShell
