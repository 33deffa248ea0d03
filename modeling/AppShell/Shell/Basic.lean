/-
AppShell/Shell/Basic.lean

The state of an application shell.

A shell holds its mediums, stores, contexts, queues, panels and all that hangs
on them in tables, each addressed by its number.  Names refer to objects in
these tables; an object lives as long as a name, or an operation in progress,
refers to it.  A callback is a list of actions with the number of turns that it
may still take; what an action is, is left open here (`α`), and an operation
that calls back takes the way to do so as an argument.  An owner that is made
while a part of the interface is built under another one is a child of that one.
-/
import AppShell.Notifications.Queue
import AppShell.Preferences.Decode
import AppShell.Shell.Outcome
import AppShell.Storage.Store

namespace AppShell

/-- Actions that are run on each of the remaining turns. -/
structure Callback (α : Type) where
  actions : List α
  remaining : Nat

/-- The number of a queue. -/
abbrev QueueId := Nat

/-- The number of a panel. -/
abbrev PanelId := Nat

/-- The number of a handle. -/
abbrev HandleId := Nat

/-- The number of a subscription. -/
abbrev SubscriptionId := Nat

/-- The number of a registration. -/
abbrev RegistrationId := Nat

/-- The number of an owner. -/
abbrev OwnerId := Nat

/-- The owner of a message, who remembers what was pushed last. -/
structure Handle where
  queue : QueueId
  id : String
  lastPushed : MessageDefinition

/-- What runs before a message is dismissed: it prevents so the next `veto` times. -/
structure Hook where
  tag : Json
  veto : Nat
  callback : CallbackId

/-- A table of listeners. -/
inductive ListenerTable where
  | keyed (store : StoreId)
  | observers (store : StoreId)
  | context (context : ContextId)
  | queue (queue : QueueId)
  | panel (panel : PanelId)
deriving DecidableEq, Repr

/-- A listener that can be detached. -/
structure Subscription where
  table : ListenerTable
  number : Nat
  active : Bool
deriving DecidableEq, Repr

/-- An entry of a panel that can be released. -/
structure Registration where
  panel : PanelId
  number : Nat
  released : Bool
deriving DecidableEq, Repr

/-- What an owner ends when it is cleaned up. -/
inductive Cleanup where
  | subscription (id : SubscriptionId)
  | registration (id : RegistrationId)
deriving DecidableEq, Repr

/-- A part of the interface with its own lifetime: what it provides, the owners above it, the
nearest first, and what ends with it, the oldest first. -/
structure Owner where
  controls : Option (QueueId × PanelId)
  context : Option ContextId
  ancestors : List OwnerId
  children : List OwnerId
  cleanups : List Cleanup
  signals : List SignalId

/-- Where an error sink sends its notifications. -/
inductive SinkTarget where
  | queue (id : QueueId)
  | handle (id : HandleId)
deriving DecidableEq, Repr

/-- What a name refers to. -/
inductive Object where
  | medium (id : MemoryId)
  | store (id : StoreId)
  | context (id : ContextId)
  | queue (id : QueueId)
  | panel (id : PanelId)
  | controls (queue : QueueId) (panel : PanelId)
  | owner (id : OwnerId)
  | binding (binding : Binding)
  | reader (source : StoreSource)
  | subscription (id : SubscriptionId)
  | registration (id : RegistrationId)
  | handle (id : HandleId)
  | sink (target : SinkTarget) (lead : Option String)
  | opener (panel : PanelId)
  | preferences (signal : SignalId) (context : ContextId)
  | dateFormat (signal : SignalId)
deriving DecidableEq, Repr

/-- What an operation calls for in the middle of its work: a turn of a callback, or the cleanup of
an owner below the one that is cleaned up. -/
inductive Call where
  | turn (callback : CallbackId)
  | cleanup (owner : OwnerId)
deriving DecidableEq, Repr

/-- The state of a shell whose callbacks run actions of the type `α`. -/
structure Shell (α : Type) where
  memories : Array Memory
  stores : Array Store
  contexts : Array StoreContext
  queues : Array Queue
  panels : Array Panel
  handles : Array Handle
  hooks : Array Hook
  subscriptions : Array Subscription
  registrations : Array Registration
  owners : Array Owner
  signals : Array (Option Preferences)
  callbacks : Array (Callback α)
  names : List (String × Object)
  held : List Object
  current : Option OwnerId
  busy : List RegistrationId
  log : List Event

namespace Shell

variable {α : Type}

/-- The shell without objects. -/
def empty : Shell α :=
  ⟨#[], #[], #[], #[], #[], #[], #[], #[], #[], #[], #[], #[], [], [], none, [], []⟩

instance : Inhabited (Shell α) := ⟨empty⟩

/-- How a call is answered. -/
abbrev Act (α : Type) := Call → Shell α → Shell α

/-- Records an event. -/
def note (sh : Shell α) (e : Event) : Shell α :=
  { sh with log := sh.log ++ [e] }

/-- A new callback. -/
def addCallback (sh : Shell α) (actions : List α) (turns : Nat) : CallbackId × Shell α :=
  (sh.callbacks.size, { sh with callbacks := sh.callbacks.push ⟨actions, turns⟩ })

/-- A new subscription to a listener that was just attached. -/
def addSubscription (sh : Shell α) (table : ListenerTable) (number : Nat) :
    SubscriptionId × Shell α :=
  (sh.subscriptions.size, { sh with subscriptions := sh.subscriptions.push ⟨table, number, true⟩ })

/-- Detaches a listener. -/
def detach (sh : Shell α) (table : ListenerTable) (number : Nat) : Shell α :=
  match table with
  | .keyed s =>
    { sh with stores := sh.stores.modify s fun st => { st with keyed := st.keyed.erase number } }
  | .observers s =>
    { sh with
      stores := sh.stores.modify s fun st => { st with observers := st.observers.erase number } }
  | .context c =>
    { sh with
      contexts := sh.contexts.modify c fun ct => { ct with keyed := ct.keyed.erase number } }
  | .queue q =>
    { sh with
      queues := sh.queues.modify q fun qu => { qu with listeners := qu.listeners.erase number } }
  | .panel p =>
    { sh with
      panels := sh.panels.modify p fun pa => { pa with listeners := pa.listeners.erase number } }

/-- Ends a subscription; a second time changes nothing. -/
def unsubscribe (sh : Shell α) (id : SubscriptionId) : Shell α :=
  match sh.subscriptions[id]? with
  | some sub =>
    if sub.active then
      { sh.detach sub.table sub.number with
        subscriptions := sh.subscriptions.modify id fun s => { s with active := false } }
    else sh
  | none => sh

/-- Whether a subscription is active. -/
def isActive (sh : Shell α) (id : SubscriptionId) : Bool :=
  match sh.subscriptions[id]? with
  | some sub => sub.active
  | none => false

/-! ### Lifetimes -/

/-- The objects that something refers to: the named ones and those in use. -/
def referenced (sh : Shell α) : List Object :=
  sh.names.map Prod.snd ++ sh.held

/-- Whether an object keeps a context alive. -/
def keepsContext (sh : Shell α) (c : ContextId) : Object → Bool
  | .context d => d == c
  | .binding ⟨.context d, _, _⟩ => d == c
  | .reader (.context d) => d == c
  | .preferences _ d => d == c
  | .owner o => (sh.owners[o]?.bind Owner.context) == some c
  | _ => false

/-- Whether a context is alive. -/
def contextAlive (sh : Shell α) (c : ContextId) : Bool :=
  sh.referenced.any (sh.keepsContext c)

/-- Whether an object keeps a panel alive. -/
def keepsPanel (sh : Shell α) (p : PanelId) : Object → Bool
  | .panel r => r == p
  | .controls _ r => r == p
  | .opener r => r == p
  | .owner o => ((sh.owners[o]?.bind Owner.controls).map Prod.snd) == some p
  | _ => false

/-- Whether a panel is alive. -/
def panelAlive (sh : Shell α) (p : PanelId) : Bool :=
  sh.referenced.any (sh.keepsPanel p)

/-- Whether an owner is alive. -/
def ownerAlive (sh : Shell α) (o : OwnerId) : Bool :=
  sh.referenced.any (· == .owner o)

/-- What an owner provides, or else the nearest owner above it; one that ended ends the search. -/
def provided {β : Type} (sh : Shell α) (get : Owner → Option β) (o : OwnerId) : Option β := do
  let owner ← sh.owners[o]?
  (o :: owner.ancestors.takeWhile sh.ownerAlive).findSome? fun a => sh.owners[a]?.bind get

/-- Keeps an object alive. -/
def hold (sh : Shell α) (o : Object) : Shell α :=
  { sh with held := o :: sh.held }

/-- Lets the object go that was held last. -/
def unhold (sh : Shell α) : Shell α :=
  { sh with held := sh.held.tail }

/-- The object with the given name. -/
def find? (sh : Shell α) (name : String) : Option Object :=
  sh.names.lookup name

end Shell

end AppShell
