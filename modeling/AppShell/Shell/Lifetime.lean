/-
AppShell/Shell/Lifetime.lean

Names, owners, and the end of objects.

An object to which nothing refers any more ends: a subscription is ended, a
registration is released, an owner is cleaned up.  A cleanup cleans up the
owners below that are still alive, ends what the owner holds, the oldest first,
and then the signals that it made.  A child keeps its place in the tree for what
its ancestors provide, but is cleaned up with its parent only once.
-/
import AppShell.Shell.Panels
import AppShell.Shell.Storage

namespace AppShell.Shell

variable {α : Type} (act : Act α)

/-! ### Cleaning up -/

/-- Ends one thing that an owner held. -/
def runCleanup (sh : Shell α) : Cleanup → Shell α
  | .subscription id => sh.unsubscribe id
  | .registration id => releaseRegistration act id sh

/-- Ends a signal. -/
def disposeSignal (sh : Shell α) (i : SignalId) : Shell α :=
  { sh with signals := sh.signals.modify i fun _ => none }

/-- Calls for the cleanup of an owner, unless it already ended. -/
def cleanupChild (sh : Shell α) (o : OwnerId) : Shell α :=
  if sh.ownerAlive o then act (.cleanup o) sh else sh

/-- Ends everything that an owner holds, its children first. -/
def cleanupOwner (o : OwnerId) (sh : Shell α) : Shell α :=
  match sh.owners[o]? with
  | none => sh
  | some owner =>
    let sh := { sh with
      owners := sh.owners.modify o fun owner =>
        { owner with children := [], cleanups := [], signals := [] } }
    let sh := owner.children.foldl (cleanupChild act) sh
    owner.signals.foldl disposeSignal (owner.cleanups.foldl (runCleanup act) sh)

/-! ### The end of objects -/

/-- Ends an object if nothing refers to it any more. -/
def letGo (o : Object) (sh : Shell α) : Shell α :=
  if o ∈ sh.referenced then sh
  else match o with
    | .subscription id => sh.unsubscribe id
    | .registration id => releaseRegistration act id sh
    | .owner id => (cleanupOwner act id (sh.hold o)).unhold
    | _ => sh

/-- Gives an object a name; what had the name before may end. -/
def bindName (name : String) (o : Object) (sh : Shell α) : Shell α :=
  let previous := sh.find? name
  let sh := { sh with names := (name, o) :: sh.names.filter fun e => e.1 != name }
  match previous with
  | none => sh
  | some p => letGo act p sh

/-- Takes a name away, and tells whether it was there. -/
def dropName (name : String) (sh : Shell α) : Bool × Shell α :=
  match sh.find? name with
  | none => (false, sh)
  | some o => (true, letGo act o { sh with names := sh.names.filter fun e => e.1 != name })

/-- Ends the hold that was taken last; the object may end with it. -/
def releaseHold (o : Object) (sh : Shell α) : Shell α :=
  letGo act o sh.unhold

/-- Answers the call for the cleanup of an owner, which lives at least until that is done. -/
def answerCleanup (o : OwnerId) (sh : Shell α) : Shell α :=
  (cleanupOwner act o (sh.hold (.owner o))).releaseHold act (.owner o)

/-! ### Owners -/

/-- A new owner, below the current one if there is one. -/
def addOwner (sh : Shell α) (controls : Option (QueueId × PanelId)) (context : Option ContextId) :
    OwnerId × Shell α :=
  let o := sh.owners.size
  match sh.current with
  | none => (o, { sh with owners := sh.owners.push ⟨controls, context, [], [], [], []⟩ })
  | some parent =>
    let ancestors := parent :: (sh.owners[parent]?.map Owner.ancestors).getD []
    let owners := sh.owners.modify parent fun w => { w with children := w.children ++ [o] }
    (o, { sh with owners := owners.push ⟨controls, context, ancestors, [], [], []⟩ })

/-- Adds to what an owner ends when it is cleaned up. -/
def addCleanup (sh : Shell α) (o : OwnerId) (c : Cleanup) : Shell α :=
  { sh with owners := sh.owners.modify o fun w => { w with cleanups := w.cleanups ++ [c] } }

/-- A new signal that an owner ends when it is cleaned up. -/
def addSignal (sh : Shell α) (o : OwnerId) (p : Preferences) : SignalId × Shell α :=
  let i := sh.signals.size
  (i, { sh with
    signals := sh.signals.push (some p)
    owners := sh.owners.modify o fun w => { w with signals := w.signals ++ [i] } })

/-- A signal that follows the stored preferences until the owner is cleaned up. -/
def followPreferences (o : OwnerId) (c : ContextId) (sh : Shell α) : SignalId × Shell α :=
  let (stored, sh) := sh.storedPreferences (.context c)
  let (i, sh) := sh.addSignal o stored
  let (callback, sh) := sh.addCallback [] 0
  let (sub, sh) := sh.listen (.context c) ⟨preferencesKey, preferencesLevel, .signal i, callback⟩
  (i, sh.addCleanup o (.subscription sub))

/-- Registers content until the owner is cleaned up; meanwhile the owner is the current one. -/
def registerForOwner (o : OwnerId) (p : PanelId) (content : Option String) (sh : Shell α) :
    Shell α :=
  let (r, after) := registerContent act p content { sh with current := some o }
  { after with current := sh.current }.addCleanup o (.registration r)

/-- The preferences that a signal holds, unless it is gone. -/
def signalValue (sh : Shell α) (i : SignalId) : Option Preferences :=
  sh.signals[i]?.join

end AppShell.Shell
