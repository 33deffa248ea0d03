/-
AppShell/Proofs/Boards/Audience.lean

Who listens to a board, and what they were shown.

A queue and a panel are boards: each displays something, and tells its listeners
what it displays after every change.  A subscriber is known by the number of its
subscription, under which its listener stands in the table of the board and its
events stand in the log.  `Seated` says that tables and subscriptions agree, so
that who sits in the audience of a board can be read off either; those who come
and those who leave keep it (`Seated.subscribe`, `Seated.unsubscribe`).
-/
import AppShell.Proofs.Listeners
import AppShell.Proofs.Notifications.Journal
import AppShell.Proofs.Panels.Steps
import AppShell.Proofs.Storage.Enrolment

namespace AppShell

variable {α : Type}

/-! ### Boards -/

/-- A queue or a panel. -/
inductive Board where
  | queue (q : QueueId)
  | panel (p : PanelId)
deriving DecidableEq

/-- The messages of a queue, or what a panel shows. -/
inductive Display where
  | messages (listed : List Notification)
  | panel (snapshot : PanelSnapshot)
deriving DecidableEq

/-- The table of the listeners of a board. -/
def Board.table : Board → ListenerTable
  | .queue q => .queue q
  | .panel p => .panel p

/-- The board whose listeners stand in a table. -/
def ListenerTable.board? : ListenerTable → Option Board
  | .queue q => some (.queue q)
  | .panel p => some (.panel p)
  | _ => none

@[simp] theorem Board.board?_table (b : Board) : b.table.board? = some b := by
  cases b <;> rfl

theorem ListenerTable.board?_eq_some_iff {table : ListenerTable} {b : Board} :
    table.board? = some b ↔ table = b.table := by
  cases table <;> cases b <;> simp [board?, Board.table]

/-- Different boards have different tables. -/
theorem Board.table_injective {b b' : Board} (h : b.table = b'.table) : b = b' := by
  have hboard : b.table.board? = b'.table.board? := congrArg ListenerTable.board? h
  simpa using hboard

/-- What a subscriber is told of a display. -/
def Display.event (n : SubscriptionId) : Display → Event
  | .messages listed => .messages (recordLabel n) listed
  | .panel snapshot => .panel (recordLabel n) snapshot

/-- What an event tells a subscriber of a display. -/
def Event.shownTo? (n : SubscriptionId) : Event → Option Display
  | .messages label listed => if label = recordLabel n then some (.messages listed) else none
  | .panel label snapshot => if label = recordLabel n then some (.panel snapshot) else none
  | _ => none

/-- An event shows a display to the subscriber that it names and to nobody else. -/
theorem Display.shownTo?_event (d : Display) (n m : SubscriptionId) :
    (d.event m).shownTo? n = if n = m then some d else none := by
  have hlabel : recordLabel m = recordLabel n ↔ n = m :=
    ⟨fun h => (recordLabel_injective h).symm, fun h => h ▸ rfl⟩
  cases d <;> simp only [event, Event.shownTo?, hlabel]

namespace Shell

variable {sh sh' : Shell α} {b : Board}

/-- What a board displays. -/
def display (sh : Shell α) : Board → Display
  | .queue q => .messages (sh.messages q)
  | .panel p => .panel (sh.panelSnapshot p)

/-- The displays that a subscriber was told of, in their order. -/
def heard (sh : Shell α) (n : SubscriptionId) : List Display :=
  sh.log.filterMap (Event.shownTo? n)

/-- The subscribers that listen to a board, none if there is no such board. -/
def audience (sh : Shell α) : Board → Option (Listeners SubscriptionId)
  | .queue q => (sh.queues[q]?.map Queue.listeners).map fun t => t.map QueueListener.callback
  | .panel p => (sh.panels[p]?.map Panel.listeners).map fun t => t.map PanelListener.callback

/-- The subscribers that listen to a board, in their order. -/
def listening (sh : Shell α) (b : Board) : List SubscriptionId :=
  ((sh.audience b).map Listeners.snapshot).getD []

/-- The callbacks of the listeners of a board, and what each is told. -/
def boardTold (sh : Shell α) : Board → List (CallbackId × Event)
  | .queue q => sh.queueTold q
  | .panel p => sh.panelTold p

/-- The board of a subscriber, also if the subscription has ended. -/
def boardOf (sh : Shell α) (n : SubscriptionId) : Option Board :=
  sh.subscriptions[n]?.bind fun sub => sub.table.board?

/-- The board that a subscriber listens to, as long as it is attached. -/
def seatOf (sh : Shell α) (n : SubscriptionId) : Option Board :=
  (sh.subscriptions[n]?.filter Subscription.active).bind fun sub => sub.table.board?

/-- A subscriber has a seat at a board as long as the subscription to its table is active. -/
theorem seatOf_eq_some_iff {n : SubscriptionId} :
    sh.seatOf n = some b ↔ ∃ number, sh.subscriptions[n]? = some ⟨b.table, number, true⟩ := by
  rcases e : sh.subscriptions[n]? with - | ⟨table, number, active⟩
  · simp [seatOf, e]
  · cases active <;>
      simp [seatOf, e, Option.filter_some, ListenerTable.board?_eq_some_iff]

/-- Whoever has a seat at a board subscribed to it. -/
theorem boardOf_of_seatOf {n : SubscriptionId} (h : sh.seatOf n = some b) :
    sh.boardOf n = some b := by
  obtain ⟨number, hn⟩ := seatOf_eq_some_iff.1 h
  simp [boardOf, hn]

/-- Only those who have subscribed belong to a board. -/
theorem lt_of_boardOf {n : SubscriptionId} (h : sh.boardOf n = some b) :
    n < sh.subscriptions.size := by
  obtain ⟨sub, hsub, -⟩ := Option.bind_eq_some_iff.1 h
  exact (Array.getElem?_eq_some_iff.1 hsub).1

/-- A note adds to what a subscriber was told exactly what it shows them. -/
theorem heard_note (sh : Shell α) (e : Event) (n : SubscriptionId) :
    (sh.note e).heard n = sh.heard n ++ (e.shownTo? n).toList := by
  rcases he : e.shownTo? n with - | d <;> simp [heard, note, he]

/-- All who listen to a board, and all subscriptions, are as they were. -/
structure SameSeats (sh sh' : Shell α) : Prop where
  queues : ∀ q : QueueId,
    sh'.queues[q]?.map Queue.listeners = sh.queues[q]?.map Queue.listeners
  panels : ∀ p : PanelId,
    sh'.panels[p]?.map Panel.listeners = sh.panels[p]?.map Panel.listeners
  subscriptions : sh'.subscriptions = sh.subscriptions

namespace SameSeats

/-- Shells with the same seats have the same audiences. -/
theorem audience (h : SameSeats sh sh') (b : Board) : sh'.audience b = sh.audience b := by
  cases b with
  | queue q => rw [Shell.audience, Shell.audience, h.queues]
  | panel p => rw [Shell.audience, Shell.audience, h.panels]

/-- The listeners of a board are the same, in the same order. -/
theorem listening (h : SameSeats sh sh') (b : Board) : sh'.listening b = sh.listening b := by
  rw [Shell.listening, Shell.listening, h.audience]

theorem boardOf (h : SameSeats sh sh') (n : SubscriptionId) : sh'.boardOf n = sh.boardOf n := by
  rw [Shell.boardOf, Shell.boardOf, h.subscriptions]

theorem seatOf (h : SameSeats sh sh') (n : SubscriptionId) : sh'.seatOf n = sh.seatOf n := by
  rw [Shell.seatOf, Shell.seatOf, h.subscriptions]

end SameSeats

/-- A change that leaves alone who listens and what was told, and all displays but that of one
board. -/
structure Touches (b? : Option Board) (sh sh' : Shell α) : Prop extends SameSeats sh sh' where
  heard : ∀ n, sh'.heard n = sh.heard n
  display : ∀ b, b? ≠ some b → sh'.display b = sh.display b

/-! ### Tables and subscriptions -/

/-- The listener of a subscriber of a queue: it is told whole messages. -/
def queueListener (n : SubscriptionId) : QueueListener := ⟨recordLabel n, true, n⟩

/-- The listener of a subscriber of a panel. -/
def panelListener (n : SubscriptionId) : PanelListener := ⟨recordLabel n, n⟩

/-- Tables and subscriptions agree: the listeners of a board are those of its subscribers, each under
the number that its subscription has. -/
structure Seated (sh : Shell α) : Prop where
  ordered : ∀ b t, sh.audience b = some t → t.Ordered
  link : ∀ b t, sh.audience b = some t → ∀ n number,
    (number, n) ∈ t.entries ↔ sh.subscriptions[n]? = some ⟨b.table, number, true⟩
  queue : ∀ (q : QueueId) t, sh.queues[q]?.map Queue.listeners = some t →
    ∀ l ∈ t.snapshot, l = queueListener l.callback
  panel : ∀ (p : PanelId) t, sh.panels[p]?.map Panel.listeners = some t →
    ∀ l ∈ t.snapshot, l = panelListener l.callback

namespace Seated

/-- Whether tables and subscriptions agree is a matter of the seats. -/
theorem of_sameSeats (h : Seated sh) (hs : SameSeats sh sh') : Seated sh' where
  ordered b t ht := h.ordered b t (hs.audience b ▸ ht)
  link b t ht n number := by
    rw [hs.subscriptions]
    exact h.link b t (hs.audience b ▸ ht) n number
  queue q t ht := h.queue q t (hs.queues q ▸ ht)
  panel p t ht := h.panel p t (hs.panels p ▸ ht)

/-- Who listens to a board can be read off the subscriptions. -/
theorem mem_listening_iff (h : Seated sh) {t : Listeners SubscriptionId}
    (ht : sh.audience b = some t) {n : SubscriptionId} :
    n ∈ sh.listening b ↔ sh.seatOf n = some b := by
  rw [listening, ht, seatOf_eq_some_iff]
  refine Listeners.mem_snapshot_iff.trans (exists_congr fun number => ?_)
  exact h.link b t ht n number

/-- A board that somebody listens to is there. -/
theorem exists_audience {n : SubscriptionId} (hn : n ∈ sh.listening b) :
    ∃ t, sh.audience b = some t := by
  rcases ht : sh.audience b with - | t
  · rw [listening, ht] at hn
    cases hn
  · exact ⟨t, rfl⟩

/-- The listeners of a board are told what it displays. -/
theorem boardTold_eq (h : Seated sh) (b : Board) :
    sh.boardTold b = (sh.listening b).map fun n => (n, (sh.display b).event n) := by
  cases b with
  | queue q =>
    rcases hqu : sh.queues[q]? with - | qu
    · simp only [boardTold, queueTold, listening, audience, hqu]
      rfl
    · simp only [boardTold, queueTold, listening, audience, display, messages, hqu, Option.map_some,
        Option.getD_some, Listeners.snapshot_map, List.map_map]
      refine List.map_congr_left fun l hl => ?_
      rw [h.queue q qu.listeners (by rw [hqu]; rfl) l hl]
      rfl
  | panel p =>
    rcases hpa : sh.panels[p]? with - | pa
    · simp only [boardTold, panelTold, listening, audience, hpa]
      rfl
    · simp only [boardTold, panelTold, listening, audience, display, panelSnapshot, hpa,
        Option.map_some, Option.getD_some, Listeners.snapshot_map, List.map_map]
      refine List.map_congr_left fun l hl => ?_
      rw [h.panel p pa.listeners (by rw [hpa]; rfl) l hl]
      rfl

end Seated

/-! ### Those who come -/

/-- A new subscriber of a board. -/
def subscribe (b : Board) (sh : Shell α) : Shell α :=
  match b with
  | .queue q => (sh.listenQueue q (queueListener sh.subscriptions.size)).2
  | .panel p => (sh.listenPanel p (panelListener sh.subscriptions.size)).2

/-- The number under which a new listener of a board is attached. -/
def nextNumber (sh : Shell α) (b : Board) : Nat :=
  ((sh.audience b).map fun t => t.issued + 1).getD 0

/-- A new subscription is active and has the next number of its table. -/
theorem subscriptions_subscribe (b : Board) (sh : Shell α) :
    (sh.subscribe b).subscriptions =
      sh.subscriptions.push ⟨b.table, sh.nextNumber b, true⟩ := by
  cases b with
  | queue q =>
    rcases e : sh.queues[q]? with - | qu <;>
      simp only [subscribe, listenQueue, nextNumber, audience, e] <;> rfl
  | panel p =>
    rcases e : sh.panels[p]? with - | pa <;>
      simp only [subscribe, listenPanel, nextNumber, audience, e] <;> rfl

/-- Nobody is told anything when somebody subscribes. -/
theorem log_subscribe (b : Board) (sh : Shell α) : (sh.subscribe b).log = sh.log := by
  cases b with
  | queue q => rcases e : sh.queues[q]? with - | qu <;> simp only [subscribe, listenQueue, e] <;> rfl
  | panel p => rcases e : sh.panels[p]? with - | pa <;> simp only [subscribe, listenPanel, e] <;> rfl

/-- Of all queues only the one subscribed to gets a listener. -/
theorem queues_subscribe (b : Board) (sh : Shell α) (q : QueueId) :
    (sh.subscribe b).queues[q]? =
      if b = .queue q then
        sh.queues[q]?.map fun qu =>
          { qu with listeners := (qu.listeners.insert (queueListener sh.subscriptions.size)).2 }
      else sh.queues[q]? := by
  cases b with
  | panel p =>
    rcases e : sh.panels[p]? with - | pa <;> simp only [subscribe, listenPanel, e] <;> rfl
  | queue q' =>
    by_cases hq : q' = q
    · subst hq
      rcases e : sh.queues[q']? with - | qu
      · simp only [subscribe, listenQueue, e, if_true]
        exact e
      · simp only [subscribe, listenQueue, e, if_true]
        show (sh.queues.modify q' _)[q']? = _
        rw [Array.getElem?_modify, if_pos rfl, e]
        rfl
    · rw [if_neg fun h => hq (Board.queue.inj h)]
      rcases e : sh.queues[q']? with - | qu
      · simp only [subscribe, listenQueue, e]
        rfl
      · simp only [subscribe, listenQueue, e]
        show (sh.queues.modify q' _)[q]? = _
        rw [Array.getElem?_modify, if_neg hq]

/-- Of all panels only the one subscribed to gets a listener. -/
theorem panels_subscribe (b : Board) (sh : Shell α) (p : PanelId) :
    (sh.subscribe b).panels[p]? =
      if b = .panel p then
        sh.panels[p]?.map fun pa =>
          { pa with listeners := (pa.listeners.insert (panelListener sh.subscriptions.size)).2 }
      else sh.panels[p]? := by
  cases b with
  | queue q =>
    rcases e : sh.queues[q]? with - | qu <;> simp only [subscribe, listenQueue, e] <;> rfl
  | panel p' =>
    by_cases hp : p' = p
    · subst hp
      rcases e : sh.panels[p']? with - | pa
      · simp only [subscribe, listenPanel, e, if_true]
        exact e
      · simp only [subscribe, listenPanel, e, if_true]
        show (sh.panels.modify p' _)[p']? = _
        rw [Array.getElem?_modify, if_pos rfl, e]
        rfl
    · rw [if_neg fun h => hp (Board.panel.inj h)]
      rcases e : sh.panels[p']? with - | pa
      · simp only [subscribe, listenPanel, e]
        rfl
      · simp only [subscribe, listenPanel, e]
        show (sh.panels.modify p' _)[p]? = _
        rw [Array.getElem?_modify, if_neg hp]

/-- The audience of the board grows by the new subscriber, at its end. -/
theorem audience_subscribe (b : Board) (sh : Shell α) (b' : Board) :
    (sh.subscribe b).audience b' =
      if b = b' then (sh.audience b').map fun t => (t.insert sh.subscriptions.size).2
      else sh.audience b' := by
  cases b' with
  | queue q =>
    rw [audience, queues_subscribe]
    split
    · simp only [audience, Option.map_map, Function.comp_def, Listeners.map_insert]
      rfl
    · rfl
  | panel p =>
    rw [audience, panels_subscribe]
    split
    · simp only [audience, Option.map_map, Function.comp_def, Listeners.map_insert]
      rfl
    · rfl

/-- Boards do not appear or disappear when somebody subscribes. -/
theorem isSome_audience_subscribe (b : Board) (sh : Shell α) (b' : Board) :
    ((sh.subscribe b).audience b').isSome = (sh.audience b').isSome := by
  rw [audience_subscribe]
  split
  · exact Option.isSome_map
  · rfl

theorem heard_subscribe (b : Board) (sh : Shell α) (n : SubscriptionId) :
    (sh.subscribe b).heard n = sh.heard n := by
  rw [heard, log_subscribe]
  rfl

/-- What the boards show does not depend on who listens. -/
theorem display_subscribe (b : Board) (sh : Shell α) (b' : Board) :
    (sh.subscribe b).display b' = sh.display b' := by
  cases b' with
  | queue q =>
    simp only [display, messages, queues_subscribe]
    split <;> simp [Option.map_map, Function.comp_def]
  | panel p =>
    simp only [display, panelSnapshot, panels_subscribe]
    split
    · rw [Option.map_map]
      rfl
    · rfl

/-- A new subscriber has a number of their own, so that tables and subscriptions agree again. -/
theorem Seated.subscribe (h : Seated sh) (b : Board) : Seated (sh.subscribe b) where
  ordered b' t' ht' := by
    rw [audience_subscribe] at ht'
    split at ht'
    · obtain ⟨t, ht, rfl⟩ := Option.map_eq_some_iff.1 ht'
      exact (h.ordered b' t ht).insert _
    · exact h.ordered b' t' ht'
  link b' t' ht' n number := by
    -- the number of the new subscription is in no table yet
    have hnew : ∀ b t, sh.audience b = some t → ∀ number, (number, sh.subscriptions.size) ∉ t.entries := by
      intro b t ht number hmem
      have hn := (h.link b t ht _ _).1 hmem
      simp at hn
    rw [audience_subscribe] at ht'
    rw [subscriptions_subscribe, Array.getElem?_push]
    by_cases hb : b = b'
    · subst hb
      rw [if_pos rfl] at ht'
      obtain ⟨t, ht, rfl⟩ := Option.map_eq_some_iff.1 ht'
      have hnumber : sh.nextNumber b = t.issued + 1 := by simp [nextNumber, ht]
      rw [Listeners.entries_insert, List.mem_append, List.mem_singleton, hnumber]
      by_cases hn : n = sh.subscriptions.size
      · subst hn
        simp [hnew b t ht number, eq_comm]
      · simp [hn, h.link b t ht n number]
    · rw [if_neg hb] at ht'
      by_cases hn : n = sh.subscriptions.size
      · subst hn
        -- a subscription to another board has its place in another table
        have htable : b.table ≠ b'.table := fun he => hb (Board.table_injective he)
        simp [hnew b' t' ht' number, htable]
      · rw [if_neg hn]
        exact h.link b' t' ht' n number
  queue q t' ht' := by
    rw [queues_subscribe] at ht'
    split at ht'
    · rw [Option.map_map] at ht'
      obtain ⟨qu, hqu, rfl⟩ := Option.map_eq_some_iff.1 ht'
      intro l hl
      rcases List.mem_append.1 (Listeners.snapshot_insert qu.listeners _ ▸ hl) with hl | hl
      · exact h.queue q qu.listeners (by rw [hqu]; rfl) l hl
      · rw [List.mem_singleton.1 hl]
        rfl
    · exact h.queue q t' ht'
  panel p t' ht' := by
    rw [panels_subscribe] at ht'
    split at ht'
    · rw [Option.map_map] at ht'
      obtain ⟨pa, hpa, rfl⟩ := Option.map_eq_some_iff.1 ht'
      intro l hl
      rcases List.mem_append.1 (Listeners.snapshot_insert pa.listeners _ ▸ hl) with hl | hl
      · exact h.panel p pa.listeners (by rw [hpa]; rfl) l hl
      · rw [List.mem_singleton.1 hl]
        rfl
    · exact h.panel p t' ht'

/-! ### Those who leave -/

/-- Detaching takes a listener from the queue of the table only. -/
theorem queues_detach (sh : Shell α) (table : ListenerTable) (number : Nat) (q : QueueId) :
    (sh.detach table number).queues[q]? =
      if table = .queue q then
        sh.queues[q]?.map fun qu => { qu with listeners := qu.listeners.erase number }
      else sh.queues[q]? := by
  cases table with
  | queue q' =>
    rw [detach, Array.getElem?_modify]
    simp
  | keyed s | observers s | context c | panel p => simp [detach]

/-- Detaching takes a listener from the panel of the table only. -/
theorem panels_detach (sh : Shell α) (table : ListenerTable) (number : Nat) (p : PanelId) :
    (sh.detach table number).panels[p]? =
      if table = .panel p then
        sh.panels[p]?.map fun pa => { pa with listeners := pa.listeners.erase number }
      else sh.panels[p]? := by
  cases table with
  | panel p' =>
    rw [detach, Array.getElem?_modify]
    simp
  | keyed s | observers s | context c | queue q => simp [detach]

/-- Detaching takes one number out of the audience of one board. -/
theorem audience_detach (sh : Shell α) (table : ListenerTable) (number : Nat) (b : Board) :
    (sh.detach table number).audience b =
      if table = b.table then (sh.audience b).map fun t => t.erase number else sh.audience b := by
  cases b with
  | queue q =>
    rw [audience, queues_detach, Board.table]
    split
    · simp only [audience, Option.map_map, Function.comp_def, Listeners.map_erase]
    · rfl
  | panel p =>
    rw [audience, panels_detach, Board.table]
    split
    · simp only [audience, Option.map_map, Function.comp_def, Listeners.map_erase]
    · rfl

theorem display_detach (sh : Shell α) (table : ListenerTable) (number : Nat) (b : Board) :
    (sh.detach table number).display b = sh.display b := by
  cases b with
  | queue q =>
    simp only [display, messages, queues_detach]
    split <;> simp [Option.map_map, Function.comp_def]
  | panel p =>
    simp only [display, panelSnapshot, panels_detach]
    split
    · rw [Option.map_map]
      rfl
    · rfl

/-- What is left of a subscription that ends. -/
theorem subscriptions_unsubscribe (sh : Shell α) (m n : SubscriptionId) :
    (sh.unsubscribe m).subscriptions[n]? =
      if m = n then sh.subscriptions[n]?.map fun sub => { sub with active := false }
      else sh.subscriptions[n]? := by
  unfold unsubscribe
  rcases e : sh.subscriptions[m]? with - | ⟨table, number, active⟩
  · by_cases hn : m = n
    · subst hn
      simp [e]
    · simp [hn]
  · cases active with
    | true => exact Array.getElem?_modify
    | false =>
      by_cases hn : m = n
      · subst hn
        simp [e]
      · simp [hn]

/-- Whoever unsubscribes loses their seat, and nobody else does. -/
theorem seatOf_unsubscribe (sh : Shell α) (m n : SubscriptionId) :
    (sh.unsubscribe m).seatOf n = if m = n then none else sh.seatOf n := by
  rw [seatOf, subscriptions_unsubscribe]
  split
  · rcases sh.subscriptions[n]? with - | sub <;> simp [Option.filter_some]
  · rfl

/-- That somebody subscribed to a board is remembered after the subscription has ended. -/
theorem boardOf_unsubscribe (sh : Shell α) (m n : SubscriptionId) :
    (sh.unsubscribe m).boardOf n = sh.boardOf n := by
  rw [boardOf, subscriptions_unsubscribe]
  split
  · rcases e : sh.subscriptions[n]? with - | sub <;> simp [boardOf, e]
  · rfl

/-- A subscription that is active ends with its listener; any other stays as it is. -/
theorem unsubscribe_cases (sh : Shell α) (m : SubscriptionId) :
    sh.unsubscribe m = sh ∨ ∃ table number, sh.subscriptions[m]? = some ⟨table, number, true⟩ ∧
      sh.unsubscribe m = { sh.detach table number with
        subscriptions := sh.subscriptions.modify m fun s => { s with active := false } } := by
  rcases e : sh.subscriptions[m]? with - | ⟨table, number, active⟩
  · exact .inl (by simp only [unsubscribe, e])
  · cases active with
    | true => exact .inr ⟨table, number, rfl, by simp only [unsubscribe, e, if_true]⟩
    | false => exact .inl (by simp only [unsubscribe, e, Bool.false_eq_true, if_false])

theorem display_unsubscribe (sh : Shell α) (m : SubscriptionId) (b : Board) :
    (sh.unsubscribe m).display b = sh.display b := by
  rcases sh.unsubscribe_cases m with h | ⟨table, number, -, h⟩
  · rw [h]
  · rw [h]
    exact display_detach sh table number b

/-- An active subscription that ends takes its number out of the audience. -/
theorem audience_unsubscribe {m : SubscriptionId} {table : ListenerTable} {number : Nat}
    (h : sh.subscriptions[m]? = some ⟨table, number, true⟩) (b : Board) :
    (sh.unsubscribe m).audience b =
      if table = b.table then (sh.audience b).map fun t => t.erase number else sh.audience b := by
  simp only [unsubscribe, h, if_true]
  exact audience_detach sh table number b

theorem isSome_audience_unsubscribe (sh : Shell α) (m : SubscriptionId) (b : Board) :
    ((sh.unsubscribe m).audience b).isSome = (sh.audience b).isSome := by
  rcases sh.unsubscribe_cases m with h | ⟨table, number, hm, -⟩
  · rw [h]
  · rw [audience_unsubscribe hm]
    split
    · exact Option.isSome_map
    · rfl

/-- Whoever unsubscribes was told what they were told, and so was everybody else. -/
theorem heard_unsubscribe (sh : Shell α) (m n : SubscriptionId) :
    (sh.unsubscribe m).heard n = sh.heard n := by
  rcases sh.unsubscribe_cases m with h | ⟨table, number, -, h⟩
  · rw [h]
  · rw [h]
    cases table <;> rfl

/-- The table loses the number of the subscription that ends, so that the two agree again. -/
theorem Seated.unsubscribe (h : Seated sh) (m : SubscriptionId) : Seated (sh.unsubscribe m) := by
  rcases sh.unsubscribe_cases m with he | ⟨table, number, hm, he⟩
  · rw [he]
    exact h
  refine ⟨fun b t ht => ?ordered, fun b t ht n number' => ?link, fun q t ht => ?queue,
    fun p t ht => ?panel⟩
  case ordered =>
    rw [audience_unsubscribe hm] at ht
    split at ht
    · obtain ⟨t, hb, rfl⟩ := Option.map_eq_some_iff.1 ht
      exact (h.ordered b t hb).erase number
    · exact h.ordered b t ht
  case link =>
    rw [audience_unsubscribe hm] at ht
    rw [subscriptions_unsubscribe]
    by_cases hb : table = b.table
    · subst hb
      rw [if_pos rfl] at ht
      obtain ⟨t, hb, rfl⟩ := Option.map_eq_some_iff.1 ht
      -- the entry that goes is the one under the number of the subscription
      have hmem : (number, m) ∈ t.entries := (h.link b t hb m number).2 hm
      rw [Listeners.entries_erase, List.mem_filter, h.link b t hb]
      by_cases hn : m = n
      · subst hn
        simpa [hm] using fun he : number = number' => he.symm
      · rw [if_neg hn]
        -- no other subscription has that number
        refine and_iff_left_of_imp fun hlink => bne_iff_ne.2 ?_
        rintro rfl
        exact hn ((h.ordered b t hb).unique hmem ((h.link b t hb n _).2 hlink))
    · rw [if_neg hb] at ht
      rw [h.link b t ht]
      by_cases hn : m = n
      · subst hn
        simp [hm, hb]
      · rw [if_neg hn]
  case queue =>
    -- a queue keeps some of its listeners and gets no new ones
    rw [he] at ht
    replace ht : ((sh.detach table number).queues[q]?).map Queue.listeners = some t := ht
    rw [queues_detach] at ht
    split at ht
    · rw [Option.map_map] at ht
      obtain ⟨qu, hqu, rfl⟩ := Option.map_eq_some_iff.1 ht
      intro l hl
      obtain ⟨number', hl⟩ := Listeners.mem_snapshot_iff.1 hl
      exact h.queue q qu.listeners (by rw [hqu]; rfl) l
        (Listeners.mem_snapshot_iff.2 ⟨number', (List.mem_filter.1 hl).1⟩)
    · exact h.queue q t ht
  case panel =>
    rw [he] at ht
    replace ht : ((sh.detach table number).panels[p]?).map Panel.listeners = some t := ht
    rw [panels_detach] at ht
    split at ht
    · rw [Option.map_map] at ht
      obtain ⟨pa, hpa, rfl⟩ := Option.map_eq_some_iff.1 ht
      intro l hl
      obtain ⟨number', hl⟩ := Listeners.mem_snapshot_iff.1 hl
      exact h.panel p pa.listeners (by rw [hpa]; rfl) l
        (Listeners.mem_snapshot_iff.2 ⟨number', (List.mem_filter.1 hl).1⟩)
    · exact h.panel p t ht

end Shell

end AppShell
