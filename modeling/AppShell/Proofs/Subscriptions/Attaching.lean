/-
AppShell/Proofs/Subscriptions/Attaching.lean

Listeners that are attached, and the subscriptions that detach them.

Stores, contexts, queues and panels keep their listeners in tables of one make,
and a subscription remembers the table and the number under which its listener
stands there.  `Shell.tableOf` reads a table of any kind, and `Alters` says that
one table is changed and no other.  Attaching puts a listener behind those of
its table under a new number (`attached_attach`); ending a subscription that is
active takes its number out of its table (`alters_unsubscribe`), and ending one
that is not does nothing (`unsubscribe_of_not_active`).

The relay of a context stands in the table of a store as well, but the context
itself detaches it, so that no subscription is made for it.
-/
import AppShell.Proofs.Boards.Audience

namespace AppShell

variable {α : Type}

/-! ### Tables of all kinds -/

/-- A listener of any kind. -/
inductive AnyListener where
  | key (l : KeyListener)
  | observer (o : StoreObserver)
  | queue (l : QueueListener)
  | panel (l : PanelListener)
deriving DecidableEq

/-- A listener, and to what it is attached. -/
inductive Attachment where
  | key (source : StoreSource) (l : KeyListener)
  | watch (s : StoreId) (label : String) (callback : CallbackId)
  | queue (q : QueueId) (l : QueueListener)
  | panel (p : PanelId) (l : PanelListener)
deriving DecidableEq

namespace Attachment

/-- The table to which the listener is attached. -/
def table : Attachment → ListenerTable
  | .key source _ => source.table
  | .watch s _ _ => .observers s
  | .queue q _ => .queue q
  | .panel p _ => .panel p

/-- The listener that is attached. -/
def listener : Attachment → AnyListener
  | .key _ l => .key l
  | .watch _ label callback => .observer (.watch label callback)
  | .queue _ l => .queue l
  | .panel _ l => .panel l

end Attachment

namespace Shell

variable {sh : Shell α}

/-- A table of listeners, if there is one. -/
def tableOf (sh : Shell α) : ListenerTable → Option (Listeners AnyListener)
  | .keyed s => sh.stores[s]?.map fun st => st.keyed.map .key
  | .observers s => sh.stores[s]?.map fun st => st.observers.map .observer
  | .context c => sh.contexts[c]?.map fun ct => ct.keyed.map .key
  | .queue q => sh.queues[q]?.map fun qu => qu.listeners.map .queue
  | .panel p => sh.panels[p]?.map fun pa => pa.listeners.map .panel

/-- Attaches a listener, and gives its subscription. -/
def attach (sh : Shell α) : Attachment → SubscriptionId × Shell α
  | .key source l => sh.listen source l
  | .watch s label callback => sh.watch s label callback
  | .queue q l => sh.listenQueue q l
  | .panel p l => sh.listenPanel p l

/-- The number under which the next listener of a table is attached. -/
def numberFor (sh : Shell α) (table : ListenerTable) : Nat :=
  ((sh.tableOf table).map fun t => t.issued + 1).getD 0

/-! ### Changes of one table -/

/-- One table is changed, and the others are as they were. -/
def Alters (table : ListenerTable) (g : Listeners AnyListener → Listeners AnyListener)
    (sh sh' : Shell α) : Prop :=
  ∀ t, sh'.tableOf t = if table = t then (sh.tableOf t).map g else sh.tableOf t

variable {g : Listeners AnyListener → Listeners AnyListener}

/-- Changing the keyed listeners of a store alters that table and no other. -/
theorem alters_keyed {s : StoreId} {f : Store → Store}
    (hf : ∀ st, sh.stores[s]? = some st → (f st).keyed.map .key = g (st.keyed.map .key))
    (ho : ∀ st, (f st).observers = st.observers) :
    Alters (.keyed s) g sh { sh with stores := sh.stores.modify s f } := by
  intro t
  cases t with
  | keyed s' =>
    simp only [ListenerTable.keyed.injEq]
    exact map_getElem?_modify_of hf s'
  | observers s' =>
    refine map_getElem?_modify sh.stores s ?_ s'
    exact fun st => congrArg (Listeners.map AnyListener.observer) (ho st)
  | context c | queue q | panel p => rfl

/-- Changing the observers of a store alters that table and no other. -/
theorem alters_observers {s : StoreId} {f : Store → Store}
    (hf : ∀ st, sh.stores[s]? = some st →
      (f st).observers.map .observer = g (st.observers.map .observer))
    (hk : ∀ st, (f st).keyed = st.keyed) :
    Alters (.observers s) g sh { sh with stores := sh.stores.modify s f } := by
  intro t
  cases t with
  | observers s' =>
    simp only [ListenerTable.observers.injEq]
    exact map_getElem?_modify_of hf s'
  | keyed s' =>
    refine map_getElem?_modify sh.stores s ?_ s'
    exact fun st => congrArg (Listeners.map AnyListener.key) (hk st)
  | context c | queue q | panel p => rfl

/-- Changing the listeners of a context alters that table and no other. -/
theorem alters_context {c : ContextId} {f : StoreContext → StoreContext}
    (hf : ∀ ct, sh.contexts[c]? = some ct → (f ct).keyed.map .key = g (ct.keyed.map .key)) :
    Alters (.context c) g sh { sh with contexts := sh.contexts.modify c f } := by
  intro t
  cases t with
  | context c' =>
    simp only [ListenerTable.context.injEq]
    exact map_getElem?_modify_of hf c'
  | keyed s | observers s | queue q | panel p => rfl

/-- Changing the listeners of a queue alters that table and no other. -/
theorem alters_queue {q : QueueId} {f : Queue → Queue}
    (hf : ∀ qu, sh.queues[q]? = some qu →
      (f qu).listeners.map .queue = g (qu.listeners.map .queue)) :
    Alters (.queue q) g sh (sh.modifyQueue q f) := by
  intro t
  cases t with
  | queue q' =>
    simp only [ListenerTable.queue.injEq]
    exact map_getElem?_modify_of hf q'
  | keyed s | observers s | context c | panel p => rfl

/-- Changing the listeners of a panel alters that table and no other. -/
theorem alters_panel {p : PanelId} {f : Panel → Panel}
    (hf : ∀ pa, sh.panels[p]? = some pa →
      (f pa).listeners.map .panel = g (pa.listeners.map .panel)) :
    Alters (.panel p) g sh (sh.modifyPanel p f) := by
  intro t
  cases t with
  | panel p' =>
    simp only [ListenerTable.panel.injEq]
    exact map_getElem?_modify_of hf p'
  | keyed s | observers s | context c | queue q => rfl

/-- Detaching a listener takes its number out of its table. -/
theorem alters_detach (sh : Shell α) (table : ListenerTable) (number : Nat) :
    Alters table (fun t => t.erase number) sh (sh.detach table number) := by
  cases table with
  | keyed s => exact alters_keyed (fun _ _ => Listeners.map_erase ..) fun _ => rfl
  | observers s => exact alters_observers (fun _ _ => Listeners.map_erase ..) fun _ => rfl
  | context c => exact alters_context fun _ _ => Listeners.map_erase ..
  | queue q => exact alters_queue fun _ _ => Listeners.map_erase ..
  | panel p => exact alters_panel fun _ _ => Listeners.map_erase ..

/-! ### Attaching a listener -/

/-- A new subscription to a table, in which its listener stands behind the others. -/
structure Attached (sh : Shell α) (a : Attachment) (made : SubscriptionId × Shell α) : Prop where
  id : made.1 = sh.subscriptions.size
  subscriptions :
    made.2.subscriptions = sh.subscriptions.push ⟨a.table, sh.numberFor a.table, true⟩
  tables : Alters a.table (fun t => (t.insert a.listener).2) sh made.2
  referenced : made.2.referenced = sh.referenced

/-- A listener whose table is not there is attached to nothing. -/
theorem attach_of_none {a : Attachment} (h : sh.tableOf a.table = none) :
    sh.attach a = sh.addSubscription a.table 0 := by
  cases a with
  | key source l =>
    cases source with
    | store s =>
      have e : sh.stores[s]? = none := Option.map_eq_none_iff.1 h
      simp only [attach, listen, e]
      rfl
    | context c =>
      have e : sh.contexts[c]? = none := Option.map_eq_none_iff.1 h
      simp only [attach, listen, e]
      rfl
  | watch s label callback =>
    have e : sh.stores[s]? = none := Option.map_eq_none_iff.1 h
    simp only [attach, watch, attachObserver, e]
    rfl
  | queue q l =>
    have e : sh.queues[q]? = none := Option.map_eq_none_iff.1 h
    simp only [attach, listenQueue, e]
    rfl
  | panel p l =>
    have e : sh.panels[p]? = none := Option.map_eq_none_iff.1 h
    simp only [attach, listenPanel, e]
    rfl

/-- What holds of what stands at a place holds of all that stands there. -/
theorem forall_of_getElem? {β : Type} {xs : Array β} {i : Nat} {b : β} {P : β → Prop}
    (e : xs[i]? = some b) (h : P b) (b' : β) (hb : xs[i]? = some b') : P b' :=
  Option.some.inj (e.symm.trans hb) ▸ h

/-- A listener whose table is there gets the next number of it. -/
theorem attach_of_some {a : Attachment} {t : Listeners AnyListener}
    (h : sh.tableOf a.table = some t) :
    ∃ sh', sh.attach a = sh'.addSubscription a.table (t.issued + 1) ∧
      Alters a.table (fun t => (t.insert a.listener).2) sh sh' ∧
      sh'.subscriptions = sh.subscriptions ∧ sh'.referenced = sh.referenced := by
  cases a with
  | key source l =>
    cases source with
    | store s =>
      obtain ⟨st, e, rfl⟩ := Option.map_eq_some_iff.1 h
      simp only [attach, listen, e]
      exact ⟨_, rfl, alters_keyed (forall_of_getElem? e (Listeners.map_insert ..)) fun _ => rfl, rfl,
        rfl⟩
    | context c =>
      obtain ⟨ct, e, rfl⟩ := Option.map_eq_some_iff.1 h
      simp only [attach, listen, e]
      exact ⟨_, rfl, alters_context (forall_of_getElem? e (Listeners.map_insert ..)), rfl, rfl⟩
  | watch s label callback =>
    obtain ⟨st, e, rfl⟩ := Option.map_eq_some_iff.1 h
    simp only [attach, watch, attachObserver, e]
    exact ⟨_, rfl, alters_observers (forall_of_getElem? e (Listeners.map_insert ..)) fun _ => rfl, rfl,
      rfl⟩
  | queue q l =>
    obtain ⟨qu, e, rfl⟩ := Option.map_eq_some_iff.1 h
    simp only [attach, listenQueue, e]
    exact ⟨_, rfl, alters_queue (forall_of_getElem? e (Listeners.map_insert ..)), rfl, rfl⟩
  | panel p l =>
    obtain ⟨pa, e, rfl⟩ := Option.map_eq_some_iff.1 h
    simp only [attach, listenPanel, e]
    exact ⟨_, rfl, alters_panel (forall_of_getElem? e (Listeners.map_insert ..)), rfl, rfl⟩

/-- Whatever is attached to, the attachment makes one entry in its table and one subscription. -/
theorem attached_attach (sh : Shell α) (a : Attachment) : Attached sh a (sh.attach a) := by
  rcases h : sh.tableOf a.table with - | t
  · rw [attach_of_none h]
    refine ⟨rfl, ?_, fun table => ?_, rfl⟩
    · rw [numberFor, h]
      rfl
    · split
      · next htable =>
        subst htable
        rw [h]
        exact h
      · rfl
  · obtain ⟨sh', hattach, halters, hsubscriptions, hreferenced⟩ := attach_of_some h
    rw [hattach]
    refine ⟨?_, ?_, halters, hreferenced⟩
    · rw [← hsubscriptions]
      rfl
    · rw [← hsubscriptions, numberFor, h]
      rfl

/-- After an attachment the new subscription is active, and the others are as they were. -/
theorem isActive_attach (sh : Shell α) (a : Attachment) (n : SubscriptionId) :
    (sh.attach a).2.isActive n = (n == sh.subscriptions.size || sh.isActive n) := by
  simp only [isActive, (sh.attached_attach a).subscriptions, Array.getElem?_push]
  by_cases h : n = sh.subscriptions.size
  · simp [h]
  · simp [h]

/-! ### Ending a subscription -/

/-- After a cancellation the cancelled subscription is not active, and the others are as they
were. -/
theorem isActive_unsubscribe (sh : Shell α) (m n : SubscriptionId) :
    (sh.unsubscribe m).isActive n = (m != n && sh.isActive n) := by
  simp only [isActive, subscriptions_unsubscribe]
  by_cases h : m = n
  · subst h
    rcases sh.subscriptions[m]? with - | sub <;> simp
  · simp [h]

/-- An active subscription that is cancelled has its own entry erased from its table. -/
theorem alters_unsubscribe {m : SubscriptionId} {table : ListenerTable} {number : Nat}
    (h : sh.subscriptions[m]? = some ⟨table, number, true⟩) :
    Alters table (fun t => t.erase number) sh (sh.unsubscribe m) := by
  simp only [unsubscribe, h, if_true]
  exact sh.alters_detach table number

/-- A subscription that is not active has nothing to end. -/
theorem unsubscribe_of_not_active {m : SubscriptionId} (h : sh.isActive m = false) :
    sh.unsubscribe m = sh := by
  rcases sh.unsubscribe_cases m with he | ⟨table, number, hm, -⟩
  · exact he
  · simp [isActive, hm] at h

/-- Cancelling a subscription lets go of no object. -/
theorem referenced_unsubscribe (sh : Shell α) (m : SubscriptionId) :
    (sh.unsubscribe m).referenced = sh.referenced := by
  rcases sh.unsubscribe_cases m with he | ⟨table, number, -, he⟩
  · rw [he]
  · rw [he]
    cases table <;> rfl

theorem size_unsubscribe (sh : Shell α) (m : SubscriptionId) :
    (sh.unsubscribe m).subscriptions.size = sh.subscriptions.size := by
  rcases sh.unsubscribe_cases m with he | ⟨table, number, -, he⟩
  · rw [he]
  · rw [he]
    exact Array.size_modify

/-- A subscription to which nothing refers any more is ended. -/
theorem letGo_subscription (act : Act α) {n : SubscriptionId}
    (h : Object.subscription n ∉ sh.referenced) :
    letGo act (.subscription n) sh = sh.unsubscribe n := by
  rw [letGo, if_neg h]

/-- A subscription that is dropped is cancelled, when nothing else refers to it. -/
theorem isActive_drop (act : Act α) {n : SubscriptionId} (m : SubscriptionId)
    (hn : Object.subscription n ∉ sh.referenced) :
    (letGo act (.subscription m) sh).isActive n = (m != n && sh.isActive n) := by
  by_cases hm : Object.subscription m ∈ sh.referenced
  · have hne : m ≠ n := by
      rintro rfl
      exact hn hm
    rw [letGo, if_pos hm, bne_iff_ne.2 hne, Bool.true_and]
  · rw [letGo_subscription act hm, isActive_unsubscribe]

end Shell

end AppShell
