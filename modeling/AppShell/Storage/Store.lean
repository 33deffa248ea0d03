/-
AppShell/Storage/Store.lean

Stores that ask for consent, and the slot of the store in use.

A store lets a reader or writer through to its medium only at a level that is
granted.  Those who listen to a key are told its value again after each
committed change of the key and after each change of the grant of their level;
observers are told of every committed change and every change of grants.  A
context holds one active store and passes on what that store announces.
-/
import AppShell.Consent
import AppShell.Listeners
import AppShell.Storage.Memory

namespace AppShell

/-- The number of a callback. -/
abbrev CallbackId := Nat

/-- The number of a store. -/
abbrev StoreId := Nat

/-- The number of a context. -/
abbrev ContextId := Nat

/-- The number of a signal. -/
abbrev SignalId := Nat

/-- How a change of a key is told: as a text, as preferences, or to a signal. -/
inductive KeyReport where
  | value (label : String)
  | preferences (label : String)
  | signal (id : SignalId)
deriving DecidableEq, Repr

/-- Someone who listens to a key at a level. -/
structure KeyListener where
  key : String
  level : ConsentLevel
  report : KeyReport
  callback : CallbackId
deriving DecidableEq, Repr

/-- Someone who observes a store: a watcher, or a context that passes on what it hears. -/
inductive StoreObserver where
  | watch (label : String) (callback : CallbackId)
  | relay (context : ContextId)
deriving DecidableEq, Repr

/-- What a store announces. -/
inductive StoreEvent where
  | written (key : String)
  | consentChanged (levels : List ConsentLevel)
deriving DecidableEq, Repr

/-- Whether an announcement concerns a listener. -/
def StoreEvent.concerns : StoreEvent → KeyListener → Bool
  | .written key, l => l.key == key
  | .consentChanged levels, l => levels.contains l.level

/-- How a store was set up. -/
structure StoreConfig where
  ignoreClose : Bool
  alwaysGranted : Bool
deriving DecidableEq, Repr

/-- A store. -/
structure Store where
  medium : Medium
  config : StoreConfig
  consent : ConsentSet
  keyed : Listeners KeyListener
  observers : Listeners StoreObserver
  closed : Bool

namespace Store

/-- A store on which nothing is granted yet. -/
def new (medium : Medium) (config : StoreConfig) : Store :=
  ⟨medium, config, .empty, .empty, .empty, false⟩

/-- The store that is used before consent is known: it owns no medium. -/
def sessionDefault : Store := new .web ⟨true, true⟩

instance : Inhabited Store := ⟨sessionDefault⟩

/-- Whether a level is reported as granted; this does not open the store. -/
def hasConsent (s : Store) (level : ConsentLevel) : Bool :=
  s.config.alwaysGranted || s.consent.allows level

end Store

/-- The slot of the store in use. -/
structure StoreContext where
  active : StoreId
  relay : Nat
  keyed : Listeners KeyListener

instance : Inhabited StoreContext := ⟨⟨0, 0, .empty⟩⟩

/-- What a reader or writer talks to. -/
inductive StoreSource where
  | store (id : StoreId)
  | context (id : ContextId)
deriving DecidableEq, Repr

/-- A key that is read and written through a source at a fixed level. -/
structure Binding where
  source : StoreSource
  key : String
  level : ConsentLevel
deriving DecidableEq, Repr

end AppShell
