/-
AppShell/Proofs/Storage/History.lean

Histories of the storage.

A history lists the steps that were taken on mediums, stores and contexts, the
newest first; `replay` takes them in a shell.  Mediums, stores, contexts and
subscriptions get their numbers in the order in which they are made, and a
history is valid if no step refers to a number that was not given before it.
Callbacks only record: every delivery to a subscriber stands in the log under
the number of its subscription.

The rest reads off the history alone, without looking at a shell:

* `granted`, `permits`: the levels that a store was granted last;
* `installed`, `target`: the store that was installed last in a context;
* `reached`: the medium that a binding is let through to;
* `entry`: what the last change of a key of a memory left there;
* `subscribed`: what a subscriber listens to, as long as it does.
-/
import AppShell.Shell.Storage

namespace AppShell

/-- The answer to callbacks that only record what they are told. -/
def Shell.quiet {α : Type} : Shell.Act α := fun _ sh => sh

/-- The name under which a subscriber records. -/
def recordLabel (n : SubscriptionId) : String := toString n

/-- A step on the storage.  A binding stands for the source, the key and the level of an access. -/
inductive StorageStep where
  | newMemory (label : String)
  | newStore (medium : Medium) (config : StoreConfig)
  | newContext (store : StoreId)
  | read (b : Binding)
  | write (b : Binding) (value : String)
  | remove (b : Binding)
  | setConsent (store : StoreId) (levels : List ConsentLevel)
  | replace (context : ContextId) (store : StoreId)
  | close (store : StoreId)
  | put (medium : Medium) (key value : String)
  | take (medium : Medium) (key : String)
  | subscribe (b : Binding)
  | watch (store : StoreId)
  | unsubscribe (subscription : SubscriptionId)

/-- Steps on the storage, the newest first. -/
abbrev History := List StorageStep

namespace StorageStep

variable {α : Type}

open Shell (quiet)

/-- What a step does to a shell.  A context that is made stays in use, and what is read is
recorded as an answer. -/
def perform (sh : Shell α) : StorageStep → Shell α
  | .newMemory label => { sh with memories := sh.memories.push (.empty label) }
  | .newStore m config => (sh.addStore (.new m config)).2
  | .newContext s => (sh.addContext s).2.hold (.context (sh.addContext s).1)
  | .read b => (sh.bindingValue b).2.note (.nested "read" (.text (sh.bindingValue b).1))
  | .write b value => Shell.setBinding quiet b value sh
  | .remove b => Shell.clearBinding quiet b sh
  | .setConsent s levels => Shell.setConsent quiet s levels sh
  | .replace c s => (Shell.replaceStore quiet c s sh).2
  | .close s => sh.closeStore s
  | .put m key value => sh.mediumSet m key value
  | .take m key => sh.mediumRemove m key
  | .subscribe b =>
    let n := sh.subscriptions.size
    (sh.listen b.source ⟨b.key, b.level, .value (recordLabel n), n⟩).2
  | .watch s =>
    let n := sh.subscriptions.size
    (sh.watch s (recordLabel n) n).2
  | .unsubscribe n => sh.unsubscribe n

end StorageStep

namespace History

variable {α : Type}

/-- The shell after the steps of a history. -/
def replay (start : Shell α) : History → Shell α
  | [] => start
  | s :: past => s.perform (replay start past)

/-- The shell after a history that starts with nothing. -/
abbrev after (α : Type) (h : History) : Shell α := replay .empty h

/-! ### Numbers -/

/-- The number of mediums made. -/
def memories : History → Nat
  | [] => 0
  | .newMemory _ :: past => memories past + 1
  | _ :: past => memories past

/-- The number of stores made. -/
def stores : History → Nat
  | [] => 0
  | .newStore _ _ :: past => stores past + 1
  | _ :: past => stores past

/-- The number of contexts made. -/
def contexts : History → Nat
  | [] => 0
  | .newContext _ :: past => contexts past + 1
  | _ :: past => contexts past

/-- The number of subscriptions made, those of watchers among them. -/
def subscriptions : History → Nat
  | [] => 0
  | .subscribe _ :: past | .watch _ :: past => subscriptions past + 1
  | _ :: past => subscriptions past

/-- Whether a medium is there. -/
def HasMedium (past : History) : Medium → Prop
  | .memory i => i < past.memories
  | .web => True

/-- Whether a source is there. -/
def HasSource (past : History) : StoreSource → Prop
  | .store s => s < past.stores
  | .context c => c < past.contexts

/-- Whether all that a step refers to is there. -/
def Refers (past : History) : StorageStep → Prop
  | .newMemory _ => True
  | .newStore m _ | .put m _ _ | .take m _ => past.HasMedium m
  | .newContext s | .setConsent s _ | .close s | .watch s => s < past.stores
  | .read b | .write b _ | .remove b | .subscribe b => past.HasSource b.source
  | .replace c s => c < past.contexts ∧ s < past.stores
  | .unsubscribe n => n < past.subscriptions

/-- Every step refers to what was there before it. -/
def Valid : History → Prop
  | [] => True
  | s :: past => Valid past ∧ Refers past s

instance (past : History) (m : Medium) : Decidable (past.HasMedium m) :=
  match m with
  | .memory i => inferInstanceAs (Decidable (i < past.memories))
  | .web => isTrue trivial

instance (past : History) (source : StoreSource) : Decidable (past.HasSource source) :=
  match source with
  | .store s => inferInstanceAs (Decidable (s < past.stores))
  | .context c => inferInstanceAs (Decidable (c < past.contexts))

instance (past : History) (s : StorageStep) : Decidable (past.Refers s) :=
  match s with
  | .newMemory _ => isTrue trivial
  | .newStore m _ | .put m _ _ | .take m _ => inferInstanceAs (Decidable (past.HasMedium m))
  | .newContext s | .setConsent s _ | .close s | .watch s =>
    inferInstanceAs (Decidable (s < past.stores))
  | .read b | .write b _ | .remove b | .subscribe b =>
    inferInstanceAs (Decidable (past.HasSource b.source))
  | .replace c s => inferInstanceAs (Decidable (c < past.contexts ∧ s < past.stores))
  | .unsubscribe n => inferInstanceAs (Decidable (n < past.subscriptions))

/-- Whether a history is valid can be checked step by step. -/
def decideValid : (h : History) → Decidable h.Valid
  | [] => isTrue trivial
  | s :: past =>
    have := decideValid past
    inferInstanceAs (Decidable (Valid past ∧ Refers past s))

instance : DecidablePred Valid := decideValid

/-! ### Grants and contexts -/

/-- The medium that a store was made over. -/
def mediumOf : History → StoreId → Option Medium
  | [], _ => none
  | .newStore m _ :: past, s => if s = stores past then some m else mediumOf past s
  | _ :: past, s => mediumOf past s

/-- The levels that a store was granted last, none for a new one. -/
def granted : History → StoreId → List ConsentLevel
  | [], _ => []
  | .newStore _ _ :: past, s => if s = stores past then [] else granted past s
  | .setConsent s' levels :: past, s => if s = s' then levels else granted past s
  | _ :: past, s => granted past s

/-- Whether a level is in effect granted in a store. -/
def permits (past : History) (s : StoreId) (level : ConsentLevel) : Bool :=
  level == .strictlyNecessary || (past.granted s).contains level

/-- The store that was installed last in a context. -/
def installed : History → ContextId → Option StoreId
  | [], _ => none
  | .newContext s :: past, c => if c = contexts past then some s else installed past c
  | .replace c' s :: past, c => if c = c' then some s else installed past c
  | _ :: past, c => installed past c

/-- The store that a source leads to. -/
def target (past : History) : StoreSource → Option StoreId
  | .store s => some s
  | .context c => past.installed c

/-- The store that an access goes through, if its level is granted there. -/
def admitted (past : History) (b : Binding) : Option StoreId :=
  (past.target b.source).filter fun s => past.permits s b.level

/-- The medium that an access is let through to. -/
def reached (past : History) (b : Binding) : Option Medium :=
  (past.admitted b).bind past.mediumOf

/-! ### Entries -/

/-- The change that a step makes: the medium, the key, and the new value, none for a removal. -/
def change? (past : History) : StorageStep → Option (Medium × String × Option String)
  | .write b value => (past.reached b).map fun m => (m, b.key, some value)
  | .remove b => (past.reached b).map fun m => (m, b.key, none)
  | .put m key value => some (m, key, some value)
  | .take m key => some (m, key, none)
  | _ => none

/-- What the most recent change of a key of a memory left there, nothing if there was none. -/
def entry : History → MemoryId → String → Option String
  | [], _, _ => none
  | s :: past, i, key =>
    match change? past s with
    | some (m, key', value) => if m = .memory i ∧ key' = key then value else entry past i key
    | none => entry past i key

/-- What a medium holds under a key; outside of the browser the web storage holds nothing. -/
def held (past : History) (m : Medium) (key : String) : Option String :=
  match m with
  | .memory i => past.entry i key
  | .web => none

/-! ### Subscribers -/

/-- What a subscriber listens to, nothing once it is unsubscribed. -/
def subscribed : History → SubscriptionId → Option Binding
  | [], _ => none
  | .subscribe b :: past, n => if n = subscriptions past then some b else subscribed past n
  | .unsubscribe n' :: past, n => if n = n' then none else subscribed past n
  | _ :: past, n => subscribed past n

end History

end AppShell
