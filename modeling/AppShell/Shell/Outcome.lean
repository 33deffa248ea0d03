/-
AppShell/Shell/Outcome.lean

What steps answer, and what happens while they run.

A step answers with an outcome.  While it runs, stores call their mediums and
listeners are called; each of these is an event.
-/
import AppShell.Consent
import AppShell.Notifications.Message
import AppShell.Panel
import AppShell.Preferences.Basic

namespace AppShell

/-- What an operation on a queue gives back. -/
inductive Returned where
  | nothing
  | id (name : String)
  | done (success : Bool)
deriving DecidableEq

/-- The answer of a step. -/
inductive Outcome where
  | nothing
  | flag (value : Bool)
  | text (value : Option String)
  | mediumStatus (size : Nat) (closed : Bool)
  | levels (granted : List ConsentLevel)
  | grants (granted : List Bool)
  | storeConfig (ignoreClose : Bool) (alwaysGranted : Bool)
  | closed (value : Bool)
  | active (value : Bool)
  | released (value : Bool)
  | replaced (previousIsExpected : Option Bool)
  | bound (key : String) (level : ConsentLevel)
  | preferences (value : Preferences)
  | effective (value : Option EffectivePreferences)
  | messages (listed : List Notification)
  | size (count : Nat)
  | queue (returned : Returned) (ids : List String)
  | handle (id : String) (lastPushed : MessageDefinition)
  | panel (snapshot : PanelSnapshot)
  | panelState (content : Option String) (isOpen : Bool) (snapshot : PanelSnapshot)
  | controls (ids : List String) (panel : PanelSnapshot)
  | noObject (what : String)
  | noInstant
deriving DecidableEq

/-- What happens while a step runs. -/
inductive Event where
  | mediumGet (medium : String) (key : String)
  | mediumSet (medium : String) (key : String) (value : String)
  | mediumRemove (medium : String) (key : String)
  | mediumClose (medium : String)
  | value (subscriber : String) (value : Option String)
  | preferences (subscriber : String) (value : Preferences)
  | written (watcher : String) (key : String)
  | consentChanged (watcher : String) (levels : List ConsentLevel)
  | ids (subscriber : String) (listed : List String)
  | messages (subscriber : String) (listed : List Notification)
  | panel (subscriber : String) (snapshot : PanelSnapshot)
  | dismissing (tag : Json) (id : String) (prevented : Bool)
  | nested (step : String) (outcome : Outcome)
deriving DecidableEq

end AppShell
