/-
AppShell/Proofs/Preferences/Readers.lean

Preferences over whole runs.

Readers of preferences lead to one store over a memory, directly or through
contexts.  What is submitted through them and what the store is granted is noted,
the newest first; the admitted patches are read off the notes, as those that were
submitted while preferences were granted.

`Stored` says that the text under the key of preferences stands for what the store
held at first, with the admitted patches merged in their order.  A change of
another key, a change of grants and whatever leaves the text alone keep it.  An
update merges its patch into what was read and writes the whole record, which is
read again as the same record (`Preferences.decode_encode`); without consent it
reads the defaults, but writes nothing.

The main statement is `stored_at_station`.
-/
import AppShell.Proofs.Preferences.RoundTrip
import AppShell.Proofs.Storage.Announcing

namespace AppShell

open Shell (preferencesKey preferencesLevel)

/-! ### Merging patches -/

namespace Preferences

variable {β : Type}

/-- What a list of patches makes of a setting: the last value that is present. -/
def lastPresent (patches : List PreferencesPatch) (field : PreferencesPatch → Option β)
    (base : β) : β :=
  (patches.filterMap field).getLast?.getD base

/-- What a patch gives to a field is what the later patches start from. -/
theorem lastPresent_cons (patch : PreferencesPatch) (patches : List PreferencesPatch)
    (field : PreferencesPatch → Option β) (base : β) :
    lastPresent (patch :: patches) field base =
      lastPresent patches field ((field patch).getD base) := by
  rcases h : field patch with - | v
  · rw [lastPresent, List.filterMap_cons_none h]
    rfl
  · rw [lastPresent, List.filterMap_cons_some h, List.getLast?_cons]
    rfl

/-- Merging patches one after the other leaves in each setting the last value that is present. -/
theorem foldl_merge (base : Preferences) (patches : List PreferencesPatch) :
    patches.foldl merge base =
      ⟨lastPresent patches PreferencesPatch.dateFormat base.dateFormat,
        lastPresent patches PreferencesPatch.colorScheme base.colorScheme,
        lastPresent patches PreferencesPatch.uiDensity base.uiDensity⟩ := by
  induction patches generalizing base with
  | nil => rfl
  | cons patch patches ih =>
    rw [List.foldl_cons, ih]
    simp only [lastPresent_cons, merge]

end Preferences

/-! ### What is noted of a store -/

/-- Something noted of a store that holds preferences. -/
inductive PreferencesMark where
  | submitted (patch : PreferencesPatch)
  | granted (levels : List ConsentLevel)

/-- What was noted of a store, the newest first. -/
abbrev PreferencesHistory := List PreferencesMark

namespace PreferencesHistory

/-- Whether preferences are granted; `first` says whether they were at the beginning. -/
def granted (first : Bool) : PreferencesHistory → Bool
  | [] => first
  | .granted levels :: _ => levels.contains preferencesLevel
  | .submitted _ :: past => granted first past

/-- The patches that were submitted while preferences were granted, the oldest first. -/
def admitted (first : Bool) : PreferencesHistory → List PreferencesPatch
  | [] => []
  | .granted _ :: past => admitted first past
  | .submitted patch :: past =>
    if granted first past then admitted first past ++ [patch] else admitted first past

/-- What was stored at the beginning with the admitted patches merged in their order. -/
def merged (first : Bool) (base : Preferences) (past : PreferencesHistory) : Preferences :=
  (past.admitted first).foldl Preferences.merge base

variable {first : Bool} {past : PreferencesHistory}

/-- A patch that is submitted under consent is merged into what was stored. -/
theorem merged_submitted (base : Preferences) (hgranted : past.granted first = true)
    (patch : PreferencesPatch) :
    merged first base (.submitted patch :: past) = (past.merged first base).merge patch := by
  rw [merged, admitted, if_pos hgranted, List.foldl_append]
  rfl

/-- A patch that is submitted without consent is not admitted. -/
theorem admitted_submitted_of_revoked (hrevoked : past.granted first = false)
    (patch : PreferencesPatch) : admitted first (.submitted patch :: past) = past.admitted first := by
  rw [admitted, hrevoked]
  rfl

end PreferencesHistory

/-! ### Steps -/

variable {α : Type}

/-- The same gates and active stores, and the same texts under the key of preferences. -/
structure Shell.SamePreferences (sh sh' : Shell α) : Prop extends Shell.SameGates sh sh' where
  text : ∀ m, sh'.entry m preferencesKey = sh.entry m preferencesKey

/-- A step that changes no data changes no preferences. -/
theorem Shell.SameData.samePreferences {sh sh' : Shell α} (h : Shell.SameData sh sh') :
    Shell.SamePreferences sh sh' :=
  ⟨h.toSameGates, fun m => h.entry m _⟩

/-- Something that leaves preferences alone. -/
structure PreferencesAside (α : Type) where
  perform : Shell α → Shell α
  same : ∀ sh, Shell.SamePreferences sh (perform sh)

/-- An update through one of some readers, a change of the grants of a store, a write or removal of
another key, or something that leaves preferences alone. -/
inductive PreferencesStep (α : Type) (readers : List StoreSource) where
  | update (reader : {r // r ∈ readers}) (patch : PreferencesPatch)
  | setConsent (t : StoreId) (levels : List ConsentLevel)
  | change (b : Binding) (value : Option String) (hb : b.key ≠ preferencesKey)
  | aside (a : PreferencesAside α)

/-- The binding of a reader of preferences. -/
def StoreSource.preferences (reader : StoreSource) : Binding :=
  ⟨reader, preferencesKey, preferencesLevel⟩

/-- The text that an update writes, if it is let through. -/
def Shell.updatedText (sh : Shell α) (reader : StoreSource) (patch : PreferencesPatch) : String :=
  ((sh.storedPreferences reader).1.merge patch).encode

/-- An update is a write of the merged record, after a read. -/
theorem Shell.updatePreferences_eq (act : Shell.Act α) (reader : StoreSource)
    (patch : PreferencesPatch) (sh : Shell α) :
    Shell.updatePreferences act reader patch sh =
      Shell.changeBinding act reader.preferences (some (sh.updatedText reader patch))
        (sh.storedPreferences reader).2 :=
  rfl

namespace PreferencesStep

variable {readers : List StoreSource}

/-- What a step does to a shell. -/
def perform (act : Shell.Act α) (sh : Shell α) : PreferencesStep α readers → Shell α
  | .update reader patch => Shell.updatePreferences act reader patch sh
  | .setConsent t levels => Shell.setConsent act t levels sh
  | .change b value _ => Shell.changeBinding act b value sh
  | .aside a => a.perform sh

/-- The stations of a step, from the change that it makes on. -/
def stations (s : StoreId) (act : Shell.Act α) (tr : Answers PreferencesMark α)
    (past : PreferencesHistory) (sh : Shell α) :
    PreferencesStep α readers → Stations PreferencesMark α
  | .update reader patch =>
    Shell.bindingStations act tr reader.1.preferences (some (sh.updatedText reader patch))
      (.submitted patch :: past) (sh.storedPreferences reader).2
  | .setConsent t levels =>
    Shell.consentStations act tr t levels (if t = s then .granted levels :: past else past) sh
  | .change b value _ => Shell.bindingStations act tr b value past sh
  | .aside _ => []

/-- How the steps on the preferences of a store are performed and noted. -/
def conduct (α : Type) (readers : List StoreSource) (s : StoreId) :
    Conduct (PreferencesStep α readers) PreferencesMark α where
  perform step act sh := step.perform act sh
  stations step act tr past sh := step.stations s act tr past sh

end PreferencesStep

/-! ### Readers of one store -/

namespace Shell

variable {sh sh' : Shell α}

/-- A read without consent gives nothing and changes nothing. -/
theorem read_of_admitted_eq_none {b : Binding} (h : sh.admitted b = none) :
    sh.read b.source b.key b.level = (none, sh) := by
  rcases ea : sh.activeStore b.source with - | s
  · simp only [read, ea]
  rcases es : sh.stores[s]? with - | st
  · simp only [read, ea, readStore, es]
  have hdenied : st.consent.allows b.level = false := by
    simpa [admitted, ea, Shell.admits, es, Option.filter_some] using h
  simp only [read, ea, readStore, es, hdenied]
  rfl

/-- A change of another key leaves preferences alone. -/
theorem samePreferences_put {b : Binding} (hb : b.key ≠ preferencesKey) (sh : Shell α)
    (value : Option String) : SamePreferences sh (sh.put b value) := by
  rw [put]
  split
  · exact (SameData.refl sh).samePreferences
  · refine ⟨sameGates_putEntry sh _ _ _, fun m => ?_⟩
    cases m with
    | web => rfl
    | memory j => exact entry_putEntry_of_ne sh (fun _ => hb) value

end Shell

/-- Readers lead to a store over a memory, which grants preferences or does not. -/
structure LeadTo (readers : List StoreSource) (s : StoreId) (i : MemoryId) (granted : Bool)
    (sh : Shell α) : Prop where
  medium : sh.stores[s]?.map Store.medium = some (.memory i)
  inside : i < sh.memories.size
  leads : ∀ r ∈ readers, sh.activeStore r = some s
  grants : sh.admits s preferencesLevel = granted

namespace LeadTo

variable {readers : List StoreSource} {s : StoreId} {i : MemoryId} {granted : Bool}
  {sh sh' : Shell α} {r : StoreSource}

/-- A step that leaves the gates alone leaves the readers with their store. -/
theorem of_sameGates (h : LeadTo readers s i granted sh) (hsame : Shell.SameGates sh sh') :
    LeadTo readers s i granted sh' where
  medium := (hsame.medium s).trans h.medium
  inside := hsame.memories.symm ▸ h.inside
  leads r hr := (hsame.activeStore r).trans (h.leads r hr)
  grants := (hsame.admits s _).trans h.grants

/-- The store of the readers stands on their memory. -/
theorem mediumOf (h : LeadTo readers s i granted sh) : sh.mediumOf s = .memory i := by
  obtain ⟨st, hs, hm⟩ := Option.map_eq_some_iff.1 h.medium
  rw [Shell.mediumOf_eq hs, hm]

/-- A reader goes through to the store exactly while preferences are granted. -/
theorem admitted (h : LeadTo readers s i granted sh) (hr : r ∈ readers) :
    sh.admitted r.preferences = if granted then some s else none := by
  rw [Shell.admitted, StoreSource.preferences, h.leads r hr, Option.filter_some, h.grants]

/-- A reader reads what the memory holds, decoded, while its level is granted, and the defaults
otherwise. -/
theorem storedPreferences (h : LeadTo readers s i granted sh) (hr : r ∈ readers) :
    (sh.storedPreferences r).1 =
      if granted then Preferences.decodeOrDefault (sh.entry (.memory i) preferencesKey)
      else .default := by
  have hvalue := Shell.valueOf_eq sh r preferencesKey preferencesLevel
  show Preferences.decodeOrDefault (sh.valueOf r preferencesKey preferencesLevel) = _
  rw [hvalue, ← StoreSource.preferences, h.admitted hr]
  split
  · rw [Option.bind_some, h.mediumOf]
  · rfl

/-- What is written through a reader goes into the memory, or nowhere. -/
theorem put (h : LeadTo readers s i granted sh) (hr : r ∈ readers) (value : Option String) :
    sh.put r.preferences value =
      if granted then sh.putEntry (.memory i) preferencesKey value else sh := by
  rw [Shell.put, h.admitted hr]
  cases granted with
  | true => exact congrArg (sh.putEntry · _ _) h.mediumOf
  | false => rfl

/-- Granting levels to the store decides whether preferences are granted. -/
theorem grant (h : LeadTo readers s i granted sh) (levels : List ConsentLevel) :
    LeadTo readers s i (levels.contains preferencesLevel) (sh.grant s levels) := by
  obtain ⟨st, hst, hm⟩ := Option.map_eq_some_iff.1 h.medium
  have hst' : (sh.grant s levels).stores[s]? = some { st with consent := .ofList levels } := by
    rw [Shell.grant, Array.getElem?_modify, if_pos rfl, hst]
    rfl
  refine ⟨?_, h.inside, h.leads, ?_⟩
  · rw [hst', Option.map_some, hm]
  · rw [Shell.admits_eq, hst']
    exact ConsentSet.contains_ofList levels preferencesLevel

/-- A grant to another store makes no difference to the readers. -/
theorem grant_of_ne (h : LeadTo readers s i granted sh) {t : StoreId} (ht : t ≠ s)
    (levels : List ConsentLevel) : LeadTo readers s i granted (sh.grant t levels) := by
  have hst : (sh.grant t levels).stores[s]? = sh.stores[s]? := by
    rw [Shell.grant, Array.getElem?_modify, if_neg ht]
  refine ⟨?_, h.inside, h.leads, ?_⟩
  · rw [hst, h.medium]
  · rw [Shell.admits_eq, hst, ← Shell.admits_eq, h.grants]

end LeadTo

/-! ### The text stands for what the notes say -/

/-- The text under the key of preferences stands for what the notes say. -/
structure Stored (readers : List StoreSource) (s : StoreId) (i : MemoryId) (first : Bool)
    (base : Preferences) (_ : Unit) (past : PreferencesHistory) (sh : Shell α) : Prop
    extends LeadTo readers s i (past.granted first) sh where
  decoded : Preferences.decodeOrDefault (sh.entry (.memory i) preferencesKey) =
    past.merged first base
  written : past.admitted first ≠ [] → ∃ raw, sh.entry (.memory i) preferencesKey = some raw ∧
    Preferences.decode raw = .ok (past.merged first base)

namespace Stored

variable {readers : List StoreSource} {s : StoreId} {i : MemoryId} {first : Bool}
  {base : Preferences} {past : PreferencesHistory} {sh sh' : Shell α} {r : StoreSource}

/-- A step that changes no preferences leaves them stored as they were. -/
theorem of_samePreferences (h : Stored readers s i first base () past sh)
    (hsame : Shell.SamePreferences sh sh') : Stored readers s i first base () past sh' where
  toLeadTo := h.toLeadTo.of_sameGates hsame.toSameGates
  decoded := (congrArg _ (hsame.text _)).trans h.decoded
  written hne := by
    rw [hsame.text]
    exact h.written hne

/-- What is stored is a matter of the data alone. -/
theorem ofData : OfData (Stored (α := α) readers s i first base) :=
  fun _ _ _ _ hsame h => h.of_samePreferences hsame.samePreferences

/-- A reader reads what the notes say, or the defaults without consent. -/
theorem reads (h : Stored readers s i first base () past sh) (hr : r ∈ readers) :
    (sh.storedPreferences r).1 =
      if past.granted first then past.merged first base else .default := by
  rw [h.storedPreferences hr, h.decoded]

/-- A record that is written while preferences are granted is what is stored. -/
theorem putEntry (h : Stored readers s i first base () past sh)
    (hgranted : past.granted first = true) (patch : PreferencesPatch) :
    Stored readers s i first base () (.submitted patch :: past) (sh.putEntry (.memory i)
      preferencesKey (some ((past.merged first base).merge patch).encode)) := by
  have hmerged := PreferencesHistory.merged_submitted base hgranted patch
  -- only that it is read again matters of the text that is written
  have hdecode := Preferences.decode_encode
    (PreferencesHistory.merged first base (.submitted patch :: past))
  rw [← hmerged]
  generalize (PreferencesHistory.merged first base (.submitted patch :: past)).encode = raw
    at hdecode ⊢
  have hentry : (sh.putEntry (.memory i) preferencesKey (some raw)).entry (.memory i)
      preferencesKey = some raw := by
    rw [Shell.entry_putEntry sh (fun j hj => by cases hj; exact h.inside), if_pos ⟨rfl, rfl⟩]
  refine ⟨h.toLeadTo.of_sameGates (Shell.sameGates_putEntry sh _ _ _), ?_, fun _ => ?_⟩
  · rw [hentry, Preferences.decodeOrDefault, hdecode]
    rfl
  · exact ⟨raw, hentry, hdecode⟩

/-- A patch is merged into what is stored, or dropped without consent. -/
theorem submitted (h : Stored readers s i first base () past sh) (hr : r ∈ readers)
    (patch : PreferencesPatch) :
    Stored readers s i first base () (.submitted patch :: past)
      ((sh.storedPreferences r).2.put r.preferences (some (sh.updatedText r patch))) := by
  have hread : Stored readers s i first base () past (sh.storedPreferences r).2 :=
    ofData _ _ _ _ (.of_sameObjects (Shell.sameObjects_read sh r _ _)) h
  rw [hread.put hr, Shell.updatedText, h.reads hr]
  cases hgranted : past.granted first with
  | true => exact hread.putEntry hgranted patch
  | false =>
    have hadmitted := PreferencesHistory.admitted_submitted_of_revoked hgranted patch
    have hmerged : PreferencesHistory.merged first base (.submitted patch :: past) =
        past.merged first base := congrArg (List.foldl _ base) hadmitted
    rw [if_neg Bool.false_ne_true]
    refine ⟨hread.toLeadTo, hread.decoded.trans hmerged.symm, ?_⟩
    rw [hadmitted, hmerged]
    exact hread.written

/-- A grant of levels to the readers' store is noted, and one to another store is not. -/
theorem grant (h : Stored readers s i first base () past sh) (t : StoreId)
    (levels : List ConsentLevel) :
    Stored readers s i first base () (if t = s then .granted levels :: past else past)
      (sh.grant t levels) := by
  split
  · next ht => exact ⟨ht ▸ h.toLeadTo.grant levels, h.decoded, h.written⟩
  · next ht => exact ⟨h.toLeadTo.grant_of_ne ht levels, h.decoded, h.written⟩

end Stored

variable {readers : List StoreSource} {s : StoreId} {i : MemoryId} {first : Bool}
  {base : Preferences} {past : PreferencesHistory} {sh sh' : Shell α}

/-- Every step keeps that the text stands for what the notes say, as long as callbacks do. -/
theorem yields_preferencesStep (step : PreferencesStep α readers) (act : Shell.Act α)
    (tr : Answers PreferencesMark α) (hact : Keeps (Stored readers s i first base) act tr)
    (u : Unit) (past : PreferencesHistory) (sh : Shell α)
    (h : Stored readers s i first base u past sh) :
    Yields (Stored readers s i first base) u past
      ((PreferencesStep.conduct α readers s).stations step act tr past sh)
      ((PreferencesStep.conduct α readers s).perform step act sh) := by
  cases step with
  | update reader patch =>
    -- the read before the write leaves all data alone
    exact .changeBinding hact Stored.ofData.ofRecords _ _ past (h.submitted reader.2 patch)
  | setConsent t levels =>
    refine .setConsent hact Stored.ofData.ofRecords t levels (fun hnone => ?_) (h.grant t levels)
    exact h
  | change b value hb =>
    exact .changeBinding hact Stored.ofData.ofRecords b value past
      (h.of_samePreferences (Shell.samePreferences_put hb sh value))
  | aside a => exact .refl (h.of_samePreferences (a.same sh))

/-! ### What a station stores -/

/-- Callbacks that leave all data alone. -/
def Shell.LeavesData (act : Shell.Act α) : Prop :=
  ∀ call sh, Shell.SameData sh (act call sh)

/-- Listeners that leave all data alone are told of a change without one of their own. -/
theorem Shell.LeavesData.announce {act : Shell.Act α} (hact : Shell.LeavesData act) (s : StoreId)
    (e : StoreEvent) (sh : Shell α) : Shell.SameData sh (Shell.announce act s e sh) := by
  -- that the data is still that of the beginning is kept by whatever leaves it alone
  let Inv : Unit → List Unit → Shell α → Prop := fun _ _ sh' => Shell.SameData sh sh'
  have hkeeps : Keeps Inv act (fun _ _ _ => []) := fun call _ _ sh' h =>
    .refl (h.trans (hact call sh'))
  have hdata : OfData Inv := fun _ _ _ _ hsame h => h.trans hsame
  have hstart : Inv () [] sh := .refl sh
  have hyields : Yields Inv () [] _ _ := .announce hkeeps hdata.ofRecords s e hstart
  exact hyields.last

/-- Some preferences are stored: they stand under their key, from which they decode without an
error, all readers read them, and no other entry is new. -/
structure Shell.StoresAnew (readers : List StoreSource) (i : MemoryId) (p : Preferences)
    (sh sh' : Shell α) : Prop where
  text : ∃ raw, sh'.entry (.memory i) preferencesKey = some raw ∧ Preferences.decode raw = .ok p
  reads : ∀ r ∈ readers, (sh'.storedPreferences r).1 = p
  others : ∀ m key, (m = .memory i → key ≠ preferencesKey) → sh'.entry m key = sh.entry m key

/-- What is stored is as the notes say: the readers read what was stored at first with the admitted
patches merged, of which in each setting the last present value counts, and the defaults without
consent; what was admitted can be decoded again; an update is dropped without consent, and else is
stored without a change of another entry. -/
structure Shell.StoredAs (readers : List StoreSource) (i : MemoryId) (first : Bool)
    (base : Preferences) (past : PreferencesHistory) (sh : Shell α) : Prop where
  reads : ∀ r ∈ readers, (sh.storedPreferences r).1 =
    if past.granted first then past.merged first base else .default
  settings : past.merged first base =
    ⟨Preferences.lastPresent (past.admitted first) PreferencesPatch.dateFormat base.dateFormat,
      Preferences.lastPresent (past.admitted first) PreferencesPatch.colorScheme base.colorScheme,
      Preferences.lastPresent (past.admitted first) PreferencesPatch.uiDensity base.uiDensity⟩
  text : past.admitted first ≠ [] → ∃ raw, sh.entry (.memory i) preferencesKey = some raw ∧
    Preferences.decode raw = .ok (past.merged first base)
  dropped : past.granted first = false → ∀ r ∈ readers, ∀ (patch : PreferencesPatch)
    (act : Shell.Act α), Shell.updatePreferences act r patch sh = sh
  stored : past.granted first = true → ∀ r ∈ readers, ∀ (patch : PreferencesPatch)
    (act : Shell.Act α), Shell.LeavesData act →
      Shell.StoresAnew readers i ((past.merged first base).merge patch) sh
        (Shell.updatePreferences act r patch sh)

namespace Stored

variable {r : StoreSource}

/-- Without consent an update neither reads nor writes. -/
theorem updatePreferences_revoked (h : Stored readers s i first base () past sh)
    (hrevoked : past.granted first = false) (hr : r ∈ readers) (patch : PreferencesPatch)
    (act : Shell.Act α) : Shell.updatePreferences act r patch sh = sh := by
  have hnone : sh.admitted r.preferences = none := by
    rw [h.admitted hr, hrevoked]
    rfl
  have hread : (sh.storedPreferences r).2 = sh :=
    congrArg Prod.snd (Shell.read_of_admitted_eq_none hnone)
  rw [Shell.updatePreferences_eq, hread, Shell.changeBinding_eq, hnone]

/-- With consent an update stores its patch over what was stored. -/
theorem updatePreferences_granted (h : Stored readers s i first base () past sh)
    (hgranted : past.granted first = true) (hr : r ∈ readers) (patch : PreferencesPatch)
    {act : Shell.Act α} (hact : Shell.LeavesData act) :
    Shell.StoresAnew readers i ((past.merged first base).merge patch) sh
      (Shell.updatePreferences act r patch sh) := by
  have hsame : Shell.SameData sh (sh.storedPreferences r).2 :=
    .of_sameObjects (Shell.sameObjects_read sh r _ _)
  have hread := ofData _ _ _ _ hsame h
  have hput := hread.putEntry hgranted patch
  have hupdate : Shell.updatePreferences act r patch sh =
      Shell.announce act s (.written preferencesKey) ((sh.storedPreferences r).2.putEntry
        (.memory i) preferencesKey (some ((past.merged first base).merge patch).encode)) := by
    rw [Shell.updatePreferences_eq, Shell.changeBinding_eq, hread.admitted hr, if_pos hgranted,
      Shell.updatedText, h.reads hr, if_pos hgranted]
    exact congrArg (fun m => Shell.announce act s _ (Shell.putEntry _ m _ _)) hread.mediumOf
  rw [hupdate]
  generalize some ((past.merged first base).merge patch).encode = value at hput ⊢
  -- the listeners find the record stored, and leave it so
  have hannounced := hact.announce s (.written preferencesKey)
    ((sh.storedPreferences r).2.putEntry (.memory i) preferencesKey value)
  have hstored := ofData _ _ _ _ hannounced hput
  have hmerged := PreferencesHistory.merged_submitted base hgranted patch
  refine ⟨?_, fun r' hr' => ?_, fun m key hne => ?_⟩
  · rw [← hmerged]
    refine hstored.written ?_
    rw [PreferencesHistory.admitted, if_pos hgranted]
    exact List.append_ne_nil_of_right_ne_nil _ (List.cons_ne_nil _ _)
  · rw [← hmerged, hstored.reads hr']
    exact if_pos hgranted
  · rw [hannounced.entry]
    cases m with
    | web => rfl
    | memory j =>
      rw [Shell.entry_putEntry_of_ne _ (fun hij => (hne hij.symm).symm), hsame.entry]

/-- Where the history describes the store, the readers read what the history says. -/
theorem storedAs (h : Stored readers s i first base () past sh) :
    sh.StoredAs readers i first base past where
  reads _ hr := h.reads hr
  settings := Preferences.foldl_merge base _
  text := h.written
  dropped hrevoked _ hr patch act := h.updatePreferences_revoked hrevoked hr patch act
  stored hgranted _ hr patch _ hact := h.updatePreferences_granted hgranted hr patch hact

end Stored

/-- At every station of every run: what the readers of a store over a memory read is what was stored
at first with the patches merged that were submitted while preferences were granted. -/
theorem stored_at_station {start : Shell α} {st : Store} (hs : start.stores[s]? = some st)
    (hm : st.medium = .memory i) (hi : i < start.memories.size)
    (hr : ∀ r ∈ readers, start.activeStore r = some s)
    (course : Course (PreferencesStep α readers) α) :
    ((course.stations (PreferencesStep.conduct α readers s) [] start).head?.map Station.shell =
      some (course.run (PreferencesStep.conduct α readers s) start)) ∧
    ∀ station ∈ course.stations (PreferencesStep.conduct α readers s) [] start,
      station.shell.StoredAs readers i (st.consent.allows preferencesLevel)
        (Preferences.decodeOrDefault (start.entry (.memory i) preferencesKey)) station.past := by
  have hstart : Stored readers s i (st.consent.allows preferencesLevel)
      (Preferences.decodeOrDefault (start.entry (.memory i) preferencesKey)) () [] start := by
    refine ⟨⟨?_, hi, hr, ?_⟩, rfl, fun hne => absurd rfl hne⟩
    · rw [hs, Option.map_some, hm]
    · rw [Shell.admits_eq, hs]
      rfl
  refine ⟨course.head?_stations _ [] start, fun station hstation => ?_⟩
  obtain ⟨_, hstored⟩ := (course.yields yields_preferencesStep hstart).all station hstation
  exact hstored.storedAs

/-- A shell with a store over a memory, a context around it and somebody who listens; the text under
the key of preferences cannot be decoded. -/
def readersStart : Shell Unit :=
  { Shell.empty with
    memories := #[(Memory.empty "memory").set preferencesKey "dark"]
    stores := #[{ Store.new (.memory 0) ⟨false, false⟩ with
      consent := .ofList [preferencesLevel]
      keyed := (Listeners.empty.insert
        ⟨preferencesKey, preferencesLevel, .preferences "listener", 0⟩).2 }]
    contexts := #[⟨0, 0, .empty⟩] }

/-- One reader of the store and one of the context. -/
def twoReaders : List StoreSource :=
  [.store 0, .context 0]

/-- Both readers update a setting, one while the listener is told of the other's update; a patch is
dropped without consent, and one is submitted after that is given again. -/
def revoking : Course (PreferencesStep Unit twoReaders) Unit :=
  let store : {r // r ∈ twoReaders} := ⟨.store 0, List.mem_cons_self⟩
  let context : {r // r ∈ twoReaders} := ⟨.context 0, List.mem_cons_of_mem _ List.mem_cons_self⟩
  let quiet : Call → Shell Unit → Course (PreferencesStep Unit twoReaders) Unit :=
    fun _ _ => .done
  .step (.update store ⟨some .iso, none, none⟩) (fun _ _ =>
    .step (.update context ⟨none, none, some .compact⟩) quiet fun _ => .done) fun _ =>
  .step (.setConsent 0 []) quiet fun _ =>
  .step (.update context ⟨none, some .dark, none⟩) quiet fun _ =>
  .step (.setConsent 0 [preferencesLevel]) quiet fun _ =>
  .step (.update store ⟨none, some .light, none⟩) quiet fun _ => .done

/-- What is noted of `revoking`. -/
def revokingHistory : PreferencesHistory :=
  [ .submitted ⟨none, some .light, none⟩,
    .granted [preferencesLevel],
    .submitted ⟨none, some .dark, none⟩,
    .granted [],
    .submitted ⟨none, none, some .compact⟩,
    .submitted ⟨some .iso, none, none⟩ ]

theorem stored_at_station_revoking :
    (revoking.run (PreferencesStep.conduct Unit twoReaders 0) readersStart).StoredAs twoReaders 0
        true .default revokingHistory ∧
      revokingHistory.merged true .default = ⟨.iso, .light, .compact⟩ := by
  have hlast : (revoking.stations (PreferencesStep.conduct Unit twoReaders 0) []
      readersStart).head? = some ⟨revokingHistory,
        revoking.run (PreferencesStep.conduct Unit twoReaders 0) readersStart⟩ := rfl
  have hreaders : ∀ r ∈ twoReaders, readersStart.activeStore r = some 0 := by
    intro r hr
    rcases List.mem_cons.1 hr with rfl | hr
    · rfl
    · obtain rfl := List.mem_singleton.1 hr
      rfl
  have hbase : Preferences.decodeOrDefault (readersStart.entry (.memory 0) preferencesKey) =
      .default := rfl
  have hinside : 0 < readersStart.memories.size := Nat.one_pos
  have hstations := (stored_at_station rfl rfl hinside hreaders revoking).2
  have hstored := hstations _ (List.mem_of_head? hlast)
  rw [hbase] at hstored
  exact ⟨hstored, rfl⟩

end AppShell
