/-
AppShell/Shell/Storage.lean

Reading and writing through stores and contexts.

A write that is let through is put into the medium first; then those who listen
to its key are told, each with a value read anew, and after them the observers
of the store.  A context that observes the store tells its own listeners, each
with a value read through the store that is active at that moment.  Who is told
is settled when the telling starts, by a snapshot of the listeners.
-/
import AppShell.Shell.Basic

namespace AppShell.Shell

variable {α : Type}

/-! ### Mediums -/

/-- The text under a key of a medium. -/
def mediumGet (sh : Shell α) (m : Medium) (key : String) : Option String × Shell α :=
  match m with
  | .web => (none, sh)
  | .memory i =>
    match sh.memories[i]? with
    | none => (none, sh)
    | some mem => (mem.get? key, sh.note (.mediumGet mem.label key))

/-- Puts a text under a key of a medium. -/
def mediumSet (sh : Shell α) (m : Medium) (key value : String) : Shell α :=
  match m with
  | .web => sh
  | .memory i =>
    match sh.memories[i]? with
    | none => sh
    | some mem =>
      { sh with memories := sh.memories.modify i fun mem => mem.set key value }.note
        (.mediumSet mem.label key value)

/-- Takes the entry of a key from a medium. -/
def mediumRemove (sh : Shell α) (m : Medium) (key : String) : Shell α :=
  match m with
  | .web => sh
  | .memory i =>
    match sh.memories[i]? with
    | none => sh
    | some mem =>
      { sh with memories := sh.memories.modify i fun mem => mem.remove key }.note
        (.mediumRemove mem.label key)

/-- Closes a medium. -/
def mediumClose (sh : Shell α) (m : Medium) : Shell α :=
  match m with
  | .web => sh
  | .memory i =>
    match sh.memories[i]? with
    | none => sh
    | some mem =>
      { sh with memories := sh.memories.modify i fun mem => { mem with closed := true } }.note
        (.mediumClose mem.label)

/-! ### Reading -/

/-- The value of a key of a store, absent without consent. -/
def readStore (sh : Shell α) (s : StoreId) (key : String) (level : ConsentLevel) :
    Option String × Shell α :=
  match sh.stores[s]? with
  | none => (none, sh)
  | some st => if st.consent.allows level then sh.mediumGet st.medium key else (none, sh)

/-- The store that a source leads to. -/
def activeStore (sh : Shell α) : StoreSource → Option StoreId
  | .store s => some s
  | .context c => sh.contexts[c]?.map StoreContext.active

/-- The value of a key, absent without consent. -/
def read (sh : Shell α) (source : StoreSource) (key : String) (level : ConsentLevel) :
    Option String × Shell α :=
  match sh.activeStore source with
  | none => (none, sh)
  | some s => sh.readStore s key level

/-! ### Telling listeners -/

variable (act : Act α)

/-- Gives a signal a new value, unless it is gone. -/
def setSignal (sh : Shell α) (i : SignalId) (p : Preferences) : Shell α :=
  { sh with signals := sh.signals.modify i fun v => v.map fun _ => p }

/-- Tells a listener a value. -/
def deliver (l : KeyListener) (value : Option String) (sh : Shell α) : Shell α :=
  match l.report with
  | .value label => act (.turn l.callback) (sh.note (.value label value))
  | .preferences label =>
    act (.turn l.callback) (sh.note (.preferences label (Preferences.decodeOrDefault value)))
  | .signal i => sh.setSignal i (Preferences.decodeOrDefault value)

/-- Tells listeners, each the value that it would read. -/
def tell (source : StoreSource) (ls : List KeyListener) (sh : Shell α) : Shell α :=
  ls.foldl (fun sh l =>
    let (value, sh) := sh.read source l.key l.level
    deliver act l value sh) sh

/-- Passes an announcement on to the listeners of a context, if it is still alive. -/
def relay (c : ContextId) (e : StoreEvent) (sh : Shell α) : Shell α :=
  match sh.contexts[c]? with
  | none => sh
  | some ct =>
    if sh.contextAlive c then
      (tell act (.context c) (ct.keyed.snapshot.filter e.concerns) (sh.hold (.context c))).unhold
    else sh

/-- Tells an observer of a store. -/
def observe (e : StoreEvent) (sh : Shell α) : StoreObserver → Shell α
  | .watch label callback =>
    match e with
    | .written key => act (.turn callback) (sh.note (.written label key))
    | .consentChanged levels => act (.turn callback) (sh.note (.consentChanged label levels))
  | .relay c => relay act c e sh

/-- Tells the observers of a store. -/
def tellObservers (s : StoreId) (e : StoreEvent) (sh : Shell α) : Shell α :=
  match sh.stores[s]? with
  | none => sh
  | some st => st.observers.snapshot.foldl (observe act e) sh

/-- Announces a change of a store to those whom it concerns. -/
def announce (s : StoreId) (e : StoreEvent) (sh : Shell α) : Shell α :=
  match sh.stores[s]? with
  | none => sh
  | some st =>
    tellObservers act s e (tell act (.store s) (st.keyed.snapshot.filter e.concerns) sh)

/-! ### Writing -/

/-- Whether a store lets a level through. -/
def admits (sh : Shell α) (s : StoreId) (level : ConsentLevel) : Bool :=
  match sh.stores[s]? with
  | none => false
  | some st => st.consent.allows level

/-- The medium of a store. -/
def mediumOf (sh : Shell α) (s : StoreId) : Medium :=
  match sh.stores[s]? with
  | none => .web
  | some st => st.medium

/-- Writes a value through a store; nothing happens without consent. -/
def writeStore (s : StoreId) (key : String) (level : ConsentLevel) (value : String)
    (sh : Shell α) : Shell α :=
  if sh.admits s level then
    announce act s (.written key) (sh.mediumSet (sh.mediumOf s) key value)
  else sh

/-- Removes a key through a store; nothing happens without consent. -/
def removeStore (s : StoreId) (key : String) (level : ConsentLevel) (sh : Shell α) : Shell α :=
  if sh.admits s level then
    announce act s (.written key) (sh.mediumRemove (sh.mediumOf s) key)
  else sh

/-- Writes a value. -/
def write (source : StoreSource) (key : String) (level : ConsentLevel) (value : String)
    (sh : Shell α) : Shell α :=
  match sh.activeStore source with
  | none => sh
  | some s => writeStore act s key level value sh

/-- Removes a key. -/
def remove (source : StoreSource) (key : String) (level : ConsentLevel) (sh : Shell α) :
    Shell α :=
  match sh.activeStore source with
  | none => sh
  | some s => removeStore act s key level sh

/-- The value of a binding, read anew on every call. -/
def bindingValue (sh : Shell α) (b : Binding) : Option String × Shell α :=
  sh.read b.source b.key b.level

/-- Writes a value through a binding. -/
def setBinding (b : Binding) (value : String) (sh : Shell α) : Shell α :=
  write act b.source b.key b.level value sh

/-- Removes the key of a binding. -/
def clearBinding (b : Binding) (sh : Shell α) : Shell α :=
  remove act b.source b.key b.level sh

/-- Grants exactly the levels of a list; those whose grant changes are announced. -/
def setConsent (s : StoreId) (levels : List ConsentLevel) (sh : Shell α) : Shell α :=
  match sh.stores[s]? with
  | none => sh
  | some st =>
    let granted := ConsentSet.ofList levels
    let changed := st.consent.transitions granted
    let sh := { sh with stores := sh.stores.modify s fun st => { st with consent := granted } }
    if changed.isEmpty then sh else announce act s (.consentChanged changed) sh

/-- Closes a store, and its medium with it unless the store does not own it. -/
def closeStore (sh : Shell α) (s : StoreId) : Shell α :=
  match sh.stores[s]? with
  | none => sh
  | some st =>
    if st.closed then sh
    else
      let sh := { sh with stores := sh.stores.modify s fun st => { st with closed := true } }
      if st.config.ignoreClose then sh else sh.mediumClose st.medium

/-! ### Making stores and contexts -/

/-- A new store. -/
def addStore (sh : Shell α) (st : Store) : StoreId × Shell α :=
  (sh.stores.size, { sh with stores := sh.stores.push st })

/-- Attaches an observer to a store. -/
def attachObserver (sh : Shell α) (s : StoreId) (o : StoreObserver) : Nat × Shell α :=
  match sh.stores[s]? with
  | none => (0, sh)
  | some st =>
    let (number, observers) := st.observers.insert o
    (number,
      { sh with stores := sh.stores.modify s fun st => { st with observers := observers } })

/-- A new context around a store. -/
def addContext (sh : Shell α) (s : StoreId) : ContextId × Shell α :=
  let c := sh.contexts.size
  let (number, sh) := sh.attachObserver s (.relay c)
  (c, { sh with contexts := sh.contexts.push ⟨s, number, .empty⟩ })

/-- Makes a store the active one of a context, tells its listeners and gives the previous store. -/
def replaceStore (c : ContextId) (s : StoreId) (sh : Shell α) : Option StoreId × Shell α :=
  match sh.contexts[c]? with
  | none => (none, sh)
  | some ct =>
    let (number, sh) := sh.attachObserver s (.relay c)
    let sh := { sh with
      contexts := sh.contexts.modify c fun ct => { ct with active := s, relay := number } }
    let sh := sh.detach (.observers ct.active) ct.relay
    let listeners := ((sh.contexts[c]?.map fun ct => ct.keyed.snapshot).getD [])
    (some ct.active, tell act (.store s) listeners sh)

/-! ### Listening -/

/-- Attaches a listener to a source. -/
def listen (sh : Shell α) (source : StoreSource) (l : KeyListener) : SubscriptionId × Shell α :=
  match source with
  | .store s =>
    match sh.stores[s]? with
    | none => sh.addSubscription (.keyed s) 0
    | some st =>
      let (number, keyed) := st.keyed.insert l
      { sh with stores := sh.stores.modify s fun st => { st with keyed := keyed } }.addSubscription
        (.keyed s) number
  | .context c =>
    match sh.contexts[c]? with
    | none => sh.addSubscription (.context c) 0
    | some ct =>
      let (number, keyed) := ct.keyed.insert l
      { sh with
        contexts := sh.contexts.modify c fun ct => { ct with keyed := keyed } }.addSubscription
        (.context c) number

/-- Attaches a watcher to a store. -/
def watch (sh : Shell α) (s : StoreId) (label : String) (callback : CallbackId) :
    SubscriptionId × Shell α :=
  let (number, sh) := sh.attachObserver s (.watch label callback)
  sh.addSubscription (.observers s) number

/-! ### Preferences -/

/-- The key under which preferences are stored. -/
def preferencesKey : String := "PREFERENCES"

/-- The level at which preferences are stored. -/
def preferencesLevel : ConsentLevel := .functionality

/-- The stored preferences over the defaults. -/
def storedPreferences (sh : Shell α) (source : StoreSource) : Preferences × Shell α :=
  let (raw, sh) := sh.read source preferencesKey preferencesLevel
  (Preferences.decodeOrDefault raw, sh)

/-- Merges a patch into the stored preferences and writes the full record. -/
def updatePreferences (source : StoreSource) (patch : PreferencesPatch) (sh : Shell α) :
    Shell α :=
  let (stored, sh) := sh.storedPreferences source
  write act source preferencesKey preferencesLevel (stored.merge patch).encode sh

end AppShell.Shell
