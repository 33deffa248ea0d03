/-
AppShell/Proofs/Storage/Announcing.lean

Announcements whose listeners take steps again.

The stations of an announcement follow the order in which `Shell.announce` calls
its listeners: those of the store, its observers, and the listeners of the
living contexts that relay it.  Between the calls the announcement reads, records
and holds, which leaves all objects as they are and closes nothing
(`Shell.RecordsOnly`); so it keeps every property of what is left that the callbacks
keep (`Yields.announce`).

A write or removal through a binding, and a change of the grants of a store, first
change the data (`Shell.put`, `Shell.grant`) and then announce this: what holds
right after the change is kept (`Yields.changeBinding`, `Yields.setConsent`).
-/
import AppShell.Proofs.Course
import AppShell.Proofs.Storage.Refinement

namespace AppShell

variable {N ι α : Type}

namespace Shell

variable (act : Act α) (tr : Answers N α)

/-- The stations while a listener is told a value. -/
def deliverStations (l : KeyListener) (value : Option String) (past : List N) (sh : Shell α) :
    Stations N α :=
  match l.report with
  | .value label => tr (.turn l.callback) past (sh.note (.value label value))
  | .preferences label =>
    tr (.turn l.callback) past (sh.note (.preferences label (Preferences.decodeOrDefault value)))
  | .signal _ => []

/-- The stations while listeners are told, each the value that it would read. -/
def tellStations (source : StoreSource) (ls : List KeyListener) (past : List N) (sh : Shell α) :
    Stations N α :=
  foldStations
    (fun sh l =>
      let (value, sh) := sh.read source l.key l.level
      deliver act l value sh)
    (fun l past sh =>
      let (value, sh) := sh.read source l.key l.level
      deliverStations tr l value past sh) ls past sh

/-- The stations while a context passes an announcement on. -/
def relayStations (c : ContextId) (e : StoreEvent) (past : List N) (sh : Shell α) :
    Stations N α :=
  match sh.contexts[c]? with
  | none => []
  | some ct =>
    if sh.contextAlive c then
      tellStations act tr (.context c) (ct.keyed.snapshot.filter e.concerns) past
        (sh.hold (.context c))
    else []

/-- The stations while an observer is told. -/
def observeStations (e : StoreEvent) (past : List N) (sh : Shell α) : StoreObserver → Stations N α
  | .watch label callback =>
    match e with
    | .written key => tr (.turn callback) past (sh.note (.written label key))
    | .consentChanged levels => tr (.turn callback) past (sh.note (.consentChanged label levels))
  | .relay c => relayStations act tr c e past sh

/-- The stations while the observers of a store are told. -/
def observersStations (s : StoreId) (e : StoreEvent) (past : List N) (sh : Shell α) :
    Stations N α :=
  match sh.stores[s]? with
  | none => []
  | some st =>
    foldStations (observe act e) (fun o past sh => observeStations act tr e past sh o)
      st.observers.snapshot past sh

/-- The stations of an announcement. -/
def announceStations (s : StoreId) (e : StoreEvent) (past : List N) (sh : Shell α) :
    Stations N α :=
  match sh.stores[s]? with
  | none => []
  | some st =>
    let ls := st.keyed.snapshot.filter e.concerns
    let during := tellStations act tr (.store s) ls past sh
    observersStations act tr s e (during.past past) (tell act (.store s) ls sh) ++ during

/-- The shell right after a change through a binding; nothing changes where none is let through. -/
def put (sh : Shell α) (b : Binding) (value : Option String) : Shell α :=
  match sh.admitted b with
  | none => sh
  | some s => sh.putEntry (sh.mediumOf s) b.key value

/-- The stations of a change through a binding, from the change on. -/
def bindingStations (b : Binding) (value : Option String) (past : List N) (sh : Shell α) :
    Stations N α :=
  (match sh.admitted b with
  | none => []
  | some s => announceStations act tr s (.written b.key) past (sh.put b value)) ++
    [⟨past, sh.put b value⟩]

/-- The shell right after a store was granted the levels of a list. -/
def grant (sh : Shell α) (s : StoreId) (levels : List ConsentLevel) : Shell α :=
  { sh with stores := sh.stores.modify s fun st => { st with consent := .ofList levels } }

/-- The stations of a change of grants, from the change on. -/
def consentStations (s : StoreId) (levels : List ConsentLevel) (past : List N) (sh : Shell α) :
    Stations N α :=
  match sh.stores[s]? with
  | none => []
  | some st =>
    let changed := st.consent.transitions (.ofList levels)
    (if changed.isEmpty then []
    else announceStations act tr s (.consentChanged changed) past (sh.grant s levels)) ++
      [⟨past, sh.grant s levels⟩]

/-- The stations of a replacement, from the installation on. -/
def installStations (c : ContextId) (s : StoreId) (past : List N) (sh : Shell α) : Stations N α :=
  match sh.contexts[c]? with
  | none => []
  | some ct =>
    tellStations act tr (.store s) ct.keyed.snapshot past (sh.install c ct s) ++
      [⟨past, sh.install c ct s⟩]

end Shell

/-! ### What an announcement keeps -/

/-- Whether an event is the close of a medium. -/
def Event.isClose : Event → Bool
  | .mediumClose _ => true
  | _ => false

namespace Shell

/-- The closes of mediums that were recorded. -/
def closes (sh : Shell α) : List Event :=
  sh.log.filter Event.isClose

/-- Nothing but records of other events than closes, signals and holds differs. -/
structure RecordsOnly (sh sh' : Shell α) : Prop where
  same : sh' = { sh with log := sh'.log, signals := sh'.signals, held := sh'.held }
  closes : sh'.closes = sh.closes

namespace RecordsOnly

variable {sh sh' : Shell α}

/-- An event other than a close is only recorded. -/
theorem note (sh : Shell α) {e : Event} (he : e.isClose = false) : RecordsOnly sh (sh.note e) where
  same := rfl
  closes := by simp [Shell.closes, Shell.note, List.filter_append, he]

/-- What changes signals and holds only is no more than recording. -/
theorem of_log {sh sh' : Shell α}
    (h : sh' = { sh with signals := sh'.signals, held := sh'.held }) : RecordsOnly sh sh' where
  same := by rw [h]
  closes := by rw [h]; rfl

/-- A read only records. -/
theorem read (sh : Shell α) (source : StoreSource) (key : String) (level : ConsentLevel) :
    RecordsOnly sh (sh.read source key level).2 := by
  unfold Shell.read readStore mediumGet
  repeat' split
  all_goals first
    | exact .of_log rfl
    | exact .note sh rfl

/-- Recording changes no data. -/
theorem sameData (h : RecordsOnly sh sh') : SameData sh sh' := by
  rw [h.same]
  exact .of_fields rfl rfl rfl

end RecordsOnly

end Shell

/-- A property in which records of other events than closes, signals and holds make no difference. -/
def OfRecords (Inv : ι → List N → Shell α → Prop) : Prop :=
  ∀ i past sh sh', Shell.RecordsOnly sh sh' → Inv i past sh → Inv i past sh'

/-- A property is one of the data: what is recorded, held or told makes no difference. -/
def OfData (Inv : ι → List N → Shell α → Prop) : Prop :=
  ∀ i past sh sh', Shell.SameData sh sh' → Inv i past sh → Inv i past sh'

variable {Inv : ι → List N → Shell α → Prop} {i : ι} {past : List N} {sh : Shell α}
  {act : Shell.Act α} {tr : Answers N α}

/-- What holds of the data holds while listeners record. -/
theorem OfData.ofRecords (h : OfData Inv) : OfRecords Inv :=
  fun i past sh sh' hsame => h i past sh sh' hsame.sameData

namespace Yields

/-- A listener keeps what its callback keeps and recording does. -/
theorem deliver (hact : Keeps Inv act tr) (hkept : OfRecords Inv) (l : KeyListener)
    (value : Option String) (h : Inv i past sh) :
    Yields Inv i past (Shell.deliverStations tr l value past sh)
      (Shell.deliver act l value sh) := by
  rcases e : l.report with label | label | signal
  · simp only [Shell.deliverStations, Shell.deliver, e]
    exact hact _ i past _ (hkept i past sh _ (.note sh rfl) h)
  · simp only [Shell.deliverStations, Shell.deliver, e]
    exact hact _ i past _ (hkept i past sh _ (.note sh rfl) h)
  · simp only [Shell.deliverStations, Shell.deliver, e]
    exact .refl (hkept i past sh _ (.of_log rfl) h)

/-- Telling listeners keeps what each of them keeps. -/
theorem tell (hact : Keeps Inv act tr) (hkept : OfRecords Inv) (source : StoreSource)
    (ls : List KeyListener) (h : Inv i past sh) :
    Yields Inv i past (Shell.tellStations act tr source ls past sh)
      (Shell.tell act source ls sh) := by
  refine fold (fun l past sh h => ?_) ls h
  have hread := Shell.RecordsOnly.read sh source l.key l.level
  exact deliver hact hkept l _ (hkept i past sh _ hread h)

/-- A context that relays an event keeps what its listeners keep. -/
theorem relay (hact : Keeps Inv act tr) (hkept : OfRecords Inv) (c : ContextId) (e : StoreEvent)
    (h : Inv i past sh) :
    Yields Inv i past (Shell.relayStations act tr c e past sh) (Shell.relay act c e sh) := by
  rcases hc : sh.contexts[c]? with - | ct
  · simp only [Shell.relayStations, Shell.relay, hc]
    exact .refl h
  by_cases halive : sh.contextAlive c = true
  · -- the context is held while its listeners are told
    simp only [Shell.relayStations, Shell.relay, hc, halive, if_true]
    have hheld : Inv i past (sh.hold (.context c)) :=
      hkept i past sh _ (.of_log rfl) h
    exact (tell hact hkept _ _ hheld).settle fun past h =>
      hkept i past (Shell.tell act _ _ _) _ (.of_log rfl) h
  · simp only [Shell.relayStations, Shell.relay, hc, halive]
    exact .refl h

/-- An observer keeps what its callback keeps and recording does. -/
theorem observe (hact : Keeps Inv act tr) (hkept : OfRecords Inv) (e : StoreEvent)
    (o : StoreObserver) (h : Inv i past sh) :
    Yields Inv i past (Shell.observeStations act tr e past sh o) (Shell.observe act e sh o) := by
  cases o with
  | watch label callback =>
    cases e with
    | written key => exact hact _ i past _ (hkept i past sh _ (.note sh rfl) h)
    | consentChanged levels => exact hact _ i past _ (hkept i past sh _ (.note sh rfl) h)
  | relay c => exact relay hact hkept c e h

/-- An announcement keeps every property that callbacks keep and records do not touch. -/
theorem announce (hact : Keeps Inv act tr) (hkept : OfRecords Inv) (s : StoreId) (e : StoreEvent)
    (h : Inv i past sh) :
    Yields Inv i past (Shell.announceStations act tr s e past sh)
      (Shell.announce act s e sh) := by
  rcases hs : sh.stores[s]? with - | st
  · simp only [Shell.announceStations, Shell.announce, hs]
    exact .refl h
  have htold := tell hact hkept (.store s) (st.keyed.snapshot.filter e.concerns) h
  simp only [Shell.announceStations, Shell.announce, hs]
  refine htold.trans ?_
  generalize Shell.tell act (.store s) (st.keyed.snapshot.filter e.concerns) sh = sh' at htold ⊢
  rcases hs' : sh'.stores[s]? with - | st'
  · simp only [Shell.observersStations, Shell.tellObservers, hs']
    exact .refl htold.last
  · simp only [Shell.observersStations, Shell.tellObservers, hs']
    refine fold (fun o past sh h => ?_) _ htold.last
    exact observe hact hkept e o h

/-- A change through a binding keeps what holds right after it. -/
theorem changeBinding (hact : Keeps Inv act tr) (hkept : OfRecords Inv) (b : Binding)
    (value : Option String) (before : List N) (h : Inv i past (sh.put b value)) :
    Yields Inv i before (Shell.bindingStations act tr b value past sh)
      (Shell.changeBinding act b value sh) := by
  rw [Shell.changeBinding_eq]
  refine concat before h ?_
  rcases ha : sh.admitted b with - | s
  · simp only [Shell.put, ha] at h ⊢
    exact .refl h
  · simp only [Shell.put, ha] at h ⊢
    exact announce hact hkept s _ h

/-- A change of grants keeps what holds right after it; a store that is not there grants none. -/
theorem setConsent (hact : Keeps Inv act tr) (hkept : OfRecords Inv) (s : StoreId)
    (levels : List ConsentLevel) {before : List N} (hnone : sh.stores[s]? = none → Inv i before sh)
    (h : Inv i past (sh.grant s levels)) :
    Yields Inv i before (Shell.consentStations act tr s levels past sh)
      (Shell.setConsent act s levels sh) := by
  rcases hs : sh.stores[s]? with - | st
  · simp only [Shell.consentStations, Shell.setConsent, hs]
    exact .refl (hnone hs)
  · simp only [Shell.consentStations, Shell.setConsent, hs]
    refine concat before h ?_
    split
    · exact .refl h
    · exact announce hact hkept s _ h

/-- A replacement keeps what holds right after the installation; a context that is not there gets
no store. -/
theorem replaceStore (hact : Keeps Inv act tr) (hkept : OfRecords Inv) (c : ContextId) (s : StoreId)
    {before : List N} (hnone : sh.contexts[c]? = none → Inv i before sh)
    (h : ∀ ct, sh.contexts[c]? = some ct → Inv i past (sh.install c ct s)) :
    Yields Inv i before (Shell.installStations act tr c s past sh)
      (Shell.replaceStore act c s sh).2 := by
  rcases hc : sh.contexts[c]? with - | ct
  · simp only [Shell.installStations, Shell.replaceStore, hc]
    exact .refl (hnone hc)
  · rw [Shell.replaceStore_eq act hc]
    simp only [Shell.installStations, hc]
    exact concat before (h ct hc) (tell hact hkept (.store s) ct.keyed.snapshot (h ct hc))

end Yields

end AppShell
