/-
AppShell/Proofs/Boards/Steps.lean

What is done with queues and panels.

Each operation is a deed: it says which changes are posted, on which board, and
where a callback has a turn.  A message that is added is posted before its handle
is opened; an update has a turn before it is pushed; a hook has one before the
message is taken out; the entry of a registration is taken away while the panel is
held; a set has a turn before it lands, and posts nothing if its entry is gone.

The main statements are `BoardStep.perform_eq`, that an operation does what its
deed says, and `BoardStep.proper`, that every change of a board is posted.
-/
import AppShell.Proofs.Boards.Posting
import AppShell.Proofs.Notifications.Dismissal

namespace AppShell

variable {α : Type} {q : QueueId} {p : PanelId} {sh : Shell α}

/-- A panel that takes a new entry keeps its listeners. -/
theorem Panel.listeners_setEntry {pa changed : Panel} {owner : Option Nat} {content : Option String}
    (h : pa.setEntry owner content = some changed) : changed.listeners = pa.listeners := by
  cases owner with
  | none =>
    obtain rfl := Option.some.inj h
    rfl
  | some number =>
    rw [setEntry] at h
    by_cases hr : pa.registered number = true
    · rw [if_pos hr] at h
      obtain rfl := Option.some.inj h
      rfl
    · rw [if_neg hr] at h
      cases h

namespace Shell

/-! ### Telling as posting -/

/-- Posting a queue tells the queue's listeners that it has changed. -/
theorem post_queue (act : Act α) (q : QueueId) (sh : Shell α) :
    post act (.queue q) sh = queueChanged act q sh :=
  (queueChanged_eq act q sh).symm

/-- Posting a panel tells the panel's listeners that it has changed. -/
theorem post_panel (act : Act α) (p : PanelId) (sh : Shell α) :
    post act (.panel p) sh = panelChanged act p sh :=
  (panelChanged_eq act p sh).symm

/-- Changing a queue that was never registered changes nothing. -/
theorem modifyQueue_of_none (h : sh.queues[q]? = none) (f : Queue → Queue) :
    sh.modifyQueue q f = sh := by
  have hsame : sh.queues.modify q f = sh.queues := by
    refine Array.ext_getElem? fun i => ?_
    rw [Array.getElem?_modify]
    split
    · next hi =>
      subst hi
      rw [h]
      rfl
    · rfl
  rw [modifyQueue, hsame]

namespace Touches

/-- What changes no queue, no panel and no subscription, and tells nobody anything. -/
theorem of_heard {sh' : Shell α} (hqueues : sh'.queues = sh.queues) (hpanels : sh'.panels = sh.panels)
    (hsubscriptions : sh'.subscriptions = sh.subscriptions)
    (hheard : ∀ n, sh'.heard n = sh.heard n) : Touches none sh sh' where
  queues q := by rw [hqueues]
  panels p := by rw [hpanels]
  subscriptions := hsubscriptions
  heard := hheard
  display b _ := by
    cases b with
    | queue q => rw [Shell.display, messages, hqueues]; rfl
    | panel p => rw [Shell.display, panelSnapshot, hpanels]; rfl

/-- A step that leaves both kinds of board, the subscriptions and the log alone touches no
board. -/
theorem of_same {sh' : Shell α} (hqueues : sh'.queues = sh.queues) (hpanels : sh'.panels = sh.panels)
    (hsubscriptions : sh'.subscriptions = sh.subscriptions) (hlog : sh'.log = sh.log) :
    Touches none sh sh' :=
  of_heard hqueues hpanels hsubscriptions fun n => by
    rw [Shell.heard, hlog]
    rfl

theorem refl (sh : Shell α) : Touches none sh sh := of_same rfl rfl rfl rfl

/-- Changing a queue without its listeners touches that queue only. -/
theorem modifyQueue (sh : Shell α) {f : Queue → Queue} (hf : ∀ qu, (f qu).listeners = qu.listeners) :
    Touches (some (.queue q)) sh (sh.modifyQueue q f) where
  queues q' := by
    rw [Shell.modifyQueue, Array.getElem?_modify]
    split
    · rw [Option.map_map]
      exact congrArg (Option.map · _) (funext hf)
    · rfl
  panels _ := rfl
  subscriptions := rfl
  heard _ := rfl
  display b hb := by
    cases b with
    | queue q' =>
      have hq : q ≠ q' := fun h => hb (h ▸ rfl)
      rw [Shell.display, messages, Shell.modifyQueue, Array.getElem?_modify, if_neg hq]
      rfl
    | panel p => rfl

/-- Changing a panel without its listeners touches that panel only. -/
theorem modifyPanel (sh : Shell α) {f : Panel → Panel}
    (hf : ∀ pa, sh.panels[p]? = some pa → (f pa).listeners = pa.listeners) :
    Touches (some (.panel p)) sh (sh.modifyPanel p f) where
  queues _ := rfl
  panels p' := by
    rw [Shell.modifyPanel, Array.getElem?_modify]
    split
    · next hp =>
      subst hp
      rcases hpa : sh.panels[p]? with - | pa
      · rfl
      · exact congrArg some (hf pa hpa)
    · rfl
  subscriptions := rfl
  heard _ := rfl
  display b hb := by
    cases b with
    | queue q => rfl
    | panel p' =>
      have hp : p ≠ p' := fun h => hb (h ▸ rfl)
      rw [Shell.display, panelSnapshot, Shell.modifyPanel, Array.getElem?_modify, if_neg hp]
      rfl

/-- A quiet change before a change of a board. -/
theorem trans {b? : Option Board} {sh' sh'' : Shell α} (h : Touches none sh sh')
    (h' : Touches b? sh' sh'') : Touches b? sh sh'' where
  queues q := (h'.queues q).trans (h.queues q)
  panels p := (h'.panels p).trans (h.panels p)
  subscriptions := h'.subscriptions.trans h.subscriptions
  heard n := (h'.heard n).trans (h.heard n)
  display b hb := (h'.display b hb).trans (h.display b nofun)

/-- A push through a handle touches the queue of the handle alone. -/
theorem pushed (sh : Shell α) (h : HandleId) (handle : Handle) (m : MessageDefinition) :
    Touches (some (.queue handle.queue)) sh (sh.pushed h handle m) := by
  have hpushed : Touches none sh { sh with
      handles := sh.handles.modify h fun handle => { handle with lastPushed := m } } :=
    of_same rfl rfl rfl rfl
  have hlisted := modifyQueue (q := handle.queue) { sh with
      handles := sh.handles.modify h fun handle => { handle with lastPushed := m } }
    (f := fun qu => qu.upsert handle.id m) fun _ => rfl
  exact hpushed.trans hlisted

end Touches

/-- Boards, those who listen to them, handles and registrations are as they were, and nobody was told
anything. -/
structure SameBoards (sh sh' : Shell α) : Prop where
  queues : sh'.queues = sh.queues
  panels : sh'.panels = sh.panels
  handles : sh'.handles = sh.handles
  registrations : sh'.registrations = sh.registrations
  subscriptions : sh'.subscriptions = sh.subscriptions
  heard : ∀ n, sh'.heard n = sh.heard n

/-- A step after which all boards are the same touches none of them. -/
theorem SameBoards.touches {sh' : Shell α} (h : SameBoards sh sh') : Touches none sh sh' :=
  .of_heard h.queues h.panels h.subscriptions h.heard

end Shell

/-! ### Deeds of the operations -/

namespace Deed

open Shell (Touches)

/-- A message is put at the front of a queue. -/
def add (q : QueueId) (m : MessageDefinition) (rest : Shell α → Deed α) : Deed α :=
  .post (.queue q) (fun sh => sh.modifyQueue q fun qu => (qu.pushFront m).2) rest

/-- A message is taken out of a queue, if it is listed. -/
def remove (q : QueueId) (id : String) (sh : Shell α) : Deed α :=
  if id ∈ sh.messageIds q then
    .post (.queue q) (fun sh => sh.modifyQueue q fun qu => qu.remove id) fun _ => .nothing
  else .nothing

/-- The hook of a message has its turn, and tells whether it prevents what comes next. -/
def hook (id : String) (m : MessageDefinition) (sh : Shell α) (rest : Bool → Shell α → Deed α) :
    Deed α :=
  match m.onDismiss with
  | none => rest false sh
  | some h =>
    match sh.hooks[h]? with
    | none => rest false sh
    | some hook =>
      .turn (fun sh => ({ sh with
          hooks := sh.hooks.modify h fun hook => { hook with veto := hook.veto - 1 }
        }).note (.dismissing hook.tag id (decide (0 < hook.veto)))) hook.callback
        (rest (decide (0 < hook.veto)))

/-- A hook either has no turn, or has one before the rest. -/
theorem hook_cases (id : String) (m : MessageDefinition) (sh : Shell α) :
    ((∀ rest, hook id m sh rest = rest false sh) ∧
      ∀ act, Shell.hooked act id m sh = (false, sh)) ∨
    ∃ (f : Shell α → Shell α) (c : CallbackId) (prevented : Bool),
      (∀ rest, hook id m sh rest = .turn f c (rest prevented)) ∧
      (∀ act, Shell.hooked act id m sh = (prevented, act (.turn c) (f sh))) ∧
      Shell.SameBoards sh (f sh) := by
  rcases hm : m.onDismiss with - | k
  · exact .inl ⟨fun rest => by simp only [hook, hm], fun act => by simp only [Shell.hooked, hm]⟩
  rcases hk : sh.hooks[k]? with - | there
  · refine .inl ⟨fun rest => by simp only [hook, hm, hk], fun act => ?_⟩
    simp only [Shell.hooked, Shell.runHook, hm, hk]
  · refine .inr ⟨fun sh => ({ sh with
        hooks := sh.hooks.modify k fun hook => { hook with veto := hook.veto - 1 }
      }).note (.dismissing there.tag id (decide (0 < there.veto))), there.callback,
      decide (0 < there.veto), fun rest => by simp only [hook, hm, hk], fun act => ?_, ?_⟩
    · simp only [Shell.hooked, Shell.runHook, hm, hk]
    · refine ⟨rfl, rfl, rfl, rfl, rfl, fun n => ?_⟩
      rw [Shell.heard_note]
      exact List.append_nil _

/-- A message is dismissed. -/
def dismiss (q : QueueId) (id : String) (sh : Shell α) : Deed α :=
  match sh.message? q id with
  | none => .nothing
  | some m => hook id m sh fun prevented sh =>
    if m.dismissible && !prevented then remove q id sh else .nothing

/-- A message is pushed through a handle. -/
def push (h : HandleId) (m : MessageDefinition) (sh : Shell α) : Deed α :=
  match sh.handles[h]? with
  | none => .nothing
  | some handle => .post (.queue handle.queue) (fun sh => sh.pushed h handle m) fun _ => .nothing

/-- A handle is asked for a message, and pushes it. -/
def update (h : HandleId) (u : Updater MessageDefinition α) (sh : Shell α) : Deed α :=
  match sh.handles[h]? with
  | none => .nothing
  | some handle => .turn id u.turn fun sh => push h (u.value handle.lastPushed sh) sh

/-- An entry is put on top of a panel. -/
def register (p : PanelId) (content : Option String) (rest : Shell α → Deed α) : Deed α :=
  .post (.panel p) (fun sh => sh.modifyPanel p fun pa => (pa.register content).2) rest

/-- The entry of a registration is taken away. -/
def release (r : RegistrationId) (sh : Shell α) : Deed α :=
  match sh.registrations[r]? with
  | none => .nothing
  | some reg =>
    if reg.released then .nothing
    else
      match sh.panels[reg.panel]? with
      | none => .done fun sh => sh.markReleased r
      | some pa =>
        if sh.panelAlive reg.panel && pa.registered reg.number then
          .post (.panel reg.panel)
            (fun sh => ((sh.markReleased r).hold (.panel reg.panel)).modifyPanel reg.panel fun pa =>
              pa.release reg.number)
            fun _ => .done Shell.unhold
        else .done fun sh => sh.markReleased r

/-- The visible entry of a panel is asked for its content. -/
def set (p : PanelId) (u : Updater (Option String) α) (sh : Shell α) : Deed α :=
  match sh.panels[p]? with
  | none => .nothing
  | some pa => .turn id u.turn fun sh =>
    match sh.panels[p]?.bind fun now => now.setEntry pa.visibleOwner (u.value pa.visible sh) with
    | none => .nothing
    | some changed =>
      .post (.panel p) (fun sh => sh.modifyPanel p fun _ => changed) fun _ => .nothing

/-- A panel is asked whether it is to be open. -/
def setOpened (p : PanelId) (u : Updater Bool α) (sh : Shell α) : Deed α :=
  match sh.panels[p]? with
  | none => .nothing
  | some pa => .turn id u.turn fun sh =>
    let opened := u.value pa.opened sh
    .post (.panel p) (fun sh => sh.modifyPanel p fun pa => pa.setOpened opened) fun _ => .nothing

end Deed

/-- Something that leaves all boards and their listeners alone. -/
structure BoardAside (α : Type) where
  perform : Shell α → Shell α
  same : ∀ sh, Shell.Touches none sh (perform sh)

/-- An operation on queues, their handles, panels and registrations, or something else. -/
inductive BoardStep (α : Type) where
  | addOnce (q : QueueId) (m : MessageDefinition)
  | add (q : QueueId) (m : MessageDefinition)
  | notify (q : QueueId) (failure : Failure) (lead : Option String)
  | remove (q : QueueId) (id : String)
  | dismiss (q : QueueId) (id : String)
  | update (h : HandleId) (u : Updater MessageDefinition α)
  | notifyHandle (h : HandleId) (failure : Failure) (lead : Option String)
  | clear (h : HandleId)
  | register (p : PanelId) (content : Option String)
  | release (r : RegistrationId)
  | drop (r : RegistrationId)
  | set (p : PanelId) (u : Updater (Option String) α)
  | setOpened (p : PanelId) (u : Updater Bool α)
  | subscribe (b : Board)
  | unsubscribe (n : SubscriptionId)
  | aside (a : BoardAside α)

namespace BoardStep

/-- What an operation does to a shell. -/
def perform (act : Shell.Act α) (sh : Shell α) : BoardStep α → Shell α
  | .addOnce q m => (Shell.addMessage act q m sh).2
  | .add q m => (Shell.addWithHandle act q m sh).2
  | .notify q failure lead => Shell.notifyFailure act (.queue q) failure lead sh
  | .remove q id => (Shell.removeMessage act q id sh).2
  | .dismiss q id => (Shell.dismissMessage act q id sh).2
  | .update h u => Shell.updateHandle act h (u.update act) sh
  | .notifyHandle h failure lead => Shell.notifyFailure act (.handle h) failure lead sh
  | .clear h => (Shell.clearHandle act h sh).2
  | .register p content => (Shell.registerContent act p content sh).2
  | .release r => Shell.releaseRegistration act r sh
  | .drop r => Shell.letGo act (.registration r) sh
  | .set p u => Shell.setContent act p (u.update act) sh
  | .setOpened p u => Shell.setOpened act p (u.update act) sh
  | .subscribe b => sh.subscribe b
  | .unsubscribe n => sh.unsubscribe n
  | .aside a => a.perform sh

/-- What an operation does with boards. -/
def deed (sh : Shell α) : BoardStep α → Deed α
  | .addOnce q m => .add q m fun _ => .nothing
  | .add q m => .add q m fun _ => .done fun sh' =>
    let name := (sh.queues[q]?.map fun qu => (qu.pushFront m).1).getD ""
    { sh' with handles := sh'.handles.push ⟨q, name, m⟩ }
  | .notify q failure lead => .add q (.ofFailure failure lead) fun _ => .nothing
  | .remove q id => .remove q id sh
  | .dismiss q id => .dismiss q id sh
  | .update h u => .update h u sh
  | .notifyHandle h failure lead => .push h (.ofFailure failure lead) sh
  | .clear h =>
    match sh.handles[h]? with
    | none => .nothing
    | some handle => .remove handle.queue handle.id sh
  | .register p content => .register p content fun _ => .done fun sh' =>
    let number := (sh.panels[p]?.map fun pa => (pa.register content).1).getD 0
    { sh' with registrations := sh'.registrations.push ⟨p, number, false⟩ }
  | .release r => .release r sh
  | .drop r => if .registration r ∈ sh.referenced then .nothing else .release r sh
  | .set p u => .set p u sh
  | .setOpened p u => .setOpened p u sh
  | .subscribe b => .subscribe b
  | .unsubscribe n => .unsubscribe n
  | .aside a => .done a.perform

/-! ### What a deed does -/

section Run

variable (act : Shell.Act α)

/-- The deed of adding a message runs as `addMessage` does. -/
theorem run_add (q : QueueId) (m : MessageDefinition) (sh : Shell α) :
    (Deed.add q m fun _ => .nothing).run act sh = (Shell.addMessage act q m sh).2 := by
  show Shell.post act (.queue q) (sh.modifyQueue q fun qu => (qu.pushFront m).2) = _
  rw [Shell.post_queue]
  rcases e : sh.queues[q]? with - | qu
  · -- there is nobody to tell of a queue that is not there
    simp only [Shell.addMessage, e, Shell.modifyQueue_of_none e, Shell.queueChanged]
  · simp only [Shell.addMessage, e]

theorem run_remove (q : QueueId) (id : String) (sh : Shell α) :
    (Deed.remove q id sh).run act sh = (Shell.removeMessage act q id sh).2 := by
  rw [Deed.remove, Shell.removeMessage]
  split
  · exact Shell.post_queue act q _
  · rfl

/-- The deed of running a hook goes on from the answer and the state the hook leaves. -/
theorem run_hook (id : String) (m : MessageDefinition) (sh : Shell α)
    (rest : Bool → Shell α → Deed α) :
    (Deed.hook id m sh rest).run act sh =
      (rest (Shell.hooked act id m sh).1 (Shell.hooked act id m sh).2).run act
        (Shell.hooked act id m sh).2 := by
  rcases Deed.hook_cases id m sh with ⟨hhook, hhooked⟩ | ⟨f, c, prevented, hhook, hhooked, -⟩
  · rw [hhook, hhooked]
  · -- the turn is answered before the rest, as the hook runs before the message goes
    rw [hhook, hhooked]
    rfl

/-- The deed of dismissing a message runs as `dismissMessage` does: the hook first, then the
removal. -/
theorem run_dismiss (q : QueueId) (id : String) (sh : Shell α) :
    (Deed.dismiss q id sh).run act sh = (Shell.dismissMessage act q id sh).2 := by
  rcases e : sh.message? q id with - | m
  · rw [Shell.dismissMessage_of_none e]
    simp only [Deed.dismiss, e]
    rfl
  · rw [Shell.dismissMessage_eq e]
    simp only [Deed.dismiss, e, run_hook]
    split
    · exact run_remove act q id _
    · rfl

/-- The deed of a push through a handle runs as `pushHandle` does. -/
theorem run_push (h : HandleId) (m : MessageDefinition) (sh : Shell α) :
    (Deed.push h m sh).run act sh = Shell.pushHandle act h m sh := by
  rcases e : sh.handles[h]? with - | handle
  · simp only [Deed.push, Shell.pushHandle, e]
    rfl
  · simp only [Deed.push, Shell.pushHandle, e]
    exact Shell.post_queue act handle.queue _

/-- The deed of an update through a handle runs as `updateHandle` does, whatever its updater does to
the state on the way. -/
theorem run_update (h : HandleId) (u : Updater MessageDefinition α) (sh : Shell α) :
    (Deed.update h u sh).run act sh = Shell.updateHandle act h (u.update act) sh := by
  rcases e : sh.handles[h]? with - | handle
  · simp only [Deed.update, Shell.updateHandle, e]
    rfl
  · simp only [Deed.update, Shell.updateHandle, e]
    exact run_push act h _ _

/-- The deed of giving a registration up runs as `releaseRegistration` does. -/
theorem run_release (r : RegistrationId) (sh : Shell α) :
    (Deed.release r sh).run act sh = Shell.releaseRegistration act r sh := by
  rcases e : sh.registrations[r]? with - | reg
  · simp only [Deed.release, Shell.releaseRegistration, e]
    rfl
  · simp only [Deed.release, Shell.releaseRegistration, e]
    split
    · rfl
    · -- marking a registration as released leaves the panels as they are
      show _ = Shell.releaseEntry act reg.panel reg.number (sh.markReleased r)
      have halive : (sh.markReleased r).panelAlive reg.panel = sh.panelAlive reg.panel := rfl
      have hpanel : (sh.markReleased r).panels[reg.panel]? = sh.panels[reg.panel]? := rfl
      rw [Shell.releaseEntry, halive, hpanel]
      rcases sh.panels[reg.panel]? with - | pa
      · rfl
      · dsimp only
        split
        · exact congrArg Shell.unhold (Shell.post_panel act reg.panel _)
        · rfl

/-- The deed of setting a panel's content runs as `setContent` does. -/
theorem run_set (p : PanelId) (u : Updater (Option String) α) (sh : Shell α) :
    (Deed.set p u sh).run act sh = Shell.setContent act p (u.update act) sh := by
  rcases e : sh.panels[p]? with - | pa
  · simp only [Deed.set, Shell.setContent, e]
    rfl
  · -- what the entry becomes is judged after the turn
    obtain ⟨now, hnow⟩ : ∃ now, act (.turn u.turn) sh = now := ⟨_, rfl⟩
    simp only [Deed.set, Shell.setContent, e, Deed.run, Updater.update, id, hnow]
    rcases now.panels[p]?.bind fun there =>
        there.setEntry pa.visibleOwner (u.value pa.visible now) with - | changed
    · rfl
    · exact Shell.post_panel act p _

/-- The deed of opening or closing a panel runs as `setOpened` does. -/
theorem run_setOpened (p : PanelId) (u : Updater Bool α) (sh : Shell α) :
    (Deed.setOpened p u sh).run act sh = Shell.setOpened act p (u.update act) sh := by
  rcases e : sh.panels[p]? with - | pa
  · simp only [Deed.setOpened, Shell.setOpened, e]
    rfl
  · simp only [Deed.setOpened, Shell.setOpened, e]
    exact Shell.post_panel act p _

end Run

/-- An operation does what its deed says. -/
theorem perform_eq (s : BoardStep α) (act : Shell.Act α) (sh : Shell α) :
    s.perform act sh = (s.deed sh).run act sh := by
  cases s with
  | addOnce q m => exact (run_add act q m sh).symm
  | add q m =>
    -- the handle is opened after everybody was told, under the name that was given before
    show { (Shell.addMessage act q m sh).2 with
        handles := (Shell.addMessage act q m sh).2.handles.push
          ⟨q, (Shell.addMessage act q m sh).1, m⟩ } = _
    rw [← run_add]
    rcases e : sh.queues[q]? with - | qu <;> simp only [deed, Shell.addMessage, e] <;> rfl
  | notify q failure lead => exact (run_add act q _ sh).symm
  | remove q id => exact (run_remove act q id sh).symm
  | dismiss q id => exact (run_dismiss act q id sh).symm
  | update h u => exact (run_update act h u sh).symm
  | notifyHandle h failure lead => exact (run_push act h _ sh).symm
  | clear h =>
    rcases e : sh.handles[h]? with - | handle
    · simp only [perform, deed, Shell.clearHandle, e]
      rfl
    · simp only [perform, deed, Shell.clearHandle, e]
      exact (run_remove act handle.queue handle.id sh).symm
  | register p content =>
    simp only [perform, Shell.registerContent, ← Shell.post_panel]
    rfl
  | release r => exact (run_release act r sh).symm
  | drop r =>
    simp only [perform, deed, Shell.letGo]
    split
    · rfl
    · exact (run_release act r sh).symm
  | set p u => exact (run_set act p u sh).symm
  | setOpened p u => exact (run_setOpened act p u sh).symm
  | subscribe b => rfl
  | unsubscribe n => rfl
  | aside a => rfl

/-! ### Every change is posted -/

open Shell (Touches)

theorem proper_nothing (sh : Shell α) : Deed.nothing.Proper sh := Touches.refl sh

/-- A removal changes its queue at most once, and posts it when it does. -/
theorem proper_remove (q : QueueId) (id : String) (sh : Shell α) :
    (Deed.remove q id sh).Proper sh := by
  rw [Deed.remove]
  split
  · exact ⟨.modifyQueue sh fun _ => rfl, proper_nothing⟩
  · exact proper_nothing sh

/-- A hook is proper when all that follows it is, whichever answer it gives and whatever state it
leaves. -/
theorem proper_hook (id : String) (m : MessageDefinition) (sh : Shell α)
    {rest : Bool → Shell α → Deed α} (hrest : ∀ prevented sh, (rest prevented sh).Proper sh) :
    (Deed.hook id m sh rest).Proper sh := by
  rcases Deed.hook_cases id m sh with ⟨hhook, -⟩ | ⟨f, c, prevented, hhook, -, hf⟩
  · rw [hhook]
    exact hrest false sh
  · rw [hhook]
    exact ⟨hf.touches, hrest prevented⟩

/-- A dismissal changes its queue at most once, after the hook. -/
theorem proper_dismiss (q : QueueId) (id : String) (sh : Shell α) :
    (Deed.dismiss q id sh).Proper sh := by
  unfold Deed.dismiss
  split
  · exact proper_nothing sh
  · refine proper_hook id _ sh fun prevented sh => ?_
    split
    · exact proper_remove q id sh
    · exact proper_nothing sh

/-- A push changes the queue of its handle at most once. -/
theorem proper_push (h : HandleId) (m : MessageDefinition) (sh : Shell α) :
    (Deed.push h m sh).Proper sh := by
  unfold Deed.push
  split
  · exact proper_nothing sh
  · next handle _ => exact ⟨.pushed sh h handle m, proper_nothing⟩

/-- An update through a handle changes the queue at most once, after its updater. -/
theorem proper_update (h : HandleId) (u : Updater MessageDefinition α) (sh : Shell α) :
    (Deed.update h u sh).Proper sh := by
  unfold Deed.update
  split
  · exact proper_nothing sh
  · exact ⟨.refl sh, fun sh => proper_push h _ sh⟩

/-- A release changes the panel of its registration at most once. -/
theorem proper_release (r : RegistrationId) (sh : Shell α) : (Deed.release r sh).Proper sh := by
  unfold Deed.release
  split
  · exact proper_nothing sh
  · next reg _ =>
    have hheld : Touches none sh ((sh.markReleased r).hold (.panel reg.panel)) :=
      .of_same rfl rfl rfl rfl
    split
    · exact proper_nothing sh
    · split
      · exact .of_same rfl rfl rfl rfl
      · split
        · exact ⟨hheld.trans (.modifyPanel _ fun _ _ => rfl), fun _ => .of_same rfl rfl rfl rfl⟩
        · exact .of_same rfl rfl rfl rfl

/-- Setting a panel's content changes the panel at most once, after the updater. -/
theorem proper_set (p : PanelId) (u : Updater (Option String) α) (sh : Shell α) :
    (Deed.set p u sh).Proper sh := by
  unfold Deed.set
  split
  · exact proper_nothing sh
  · refine ⟨.refl sh, fun sh => ?_⟩
    dsimp only
    split
    · exact proper_nothing sh
    · -- the panel is replaced as a whole, by one with the same listeners
      next changed hchanged =>
      refine ⟨.modifyPanel sh fun now hnow => ?_, proper_nothing⟩
      rw [hnow] at hchanged
      exact Panel.listeners_setEntry hchanged

/-- Opening or closing a panel changes it at most once, after the updater. -/
theorem proper_setOpened (p : PanelId) (u : Updater Bool α) (sh : Shell α) :
    (Deed.setOpened p u sh).Proper sh := by
  unfold Deed.setOpened
  split
  · exact proper_nothing sh
  · exact ⟨.refl sh, fun sh => ⟨.modifyPanel sh fun _ _ => rfl, proper_nothing⟩⟩

/-- Every change of a board is posted, on the board that it is about. -/
theorem proper (s : BoardStep α) (sh : Shell α) : (s.deed sh).Proper sh := by
  cases s with
  | addOnce q m | notify q failure lead => exact ⟨.modifyQueue sh fun _ => rfl, proper_nothing⟩
  | add q m => exact ⟨.modifyQueue sh fun _ => rfl, fun _ => .of_same rfl rfl rfl rfl⟩
  | remove q id => exact proper_remove q id sh
  | dismiss q id => exact proper_dismiss q id sh
  | update h u => exact proper_update h u sh
  | notifyHandle h failure lead => exact proper_push h _ sh
  | clear h =>
    rcases e : sh.handles[h]? with - | handle
    · simp only [deed, e]
      exact proper_nothing sh
    · simp only [deed, e]
      exact proper_remove handle.queue handle.id sh
  | register p content =>
    exact ⟨.modifyPanel sh fun _ _ => rfl, fun _ => .of_same rfl rfl rfl rfl⟩
  | release r => exact proper_release r sh
  | drop r =>
    rw [deed]
    split
    · exact proper_nothing sh
    · exact proper_release r sh
  | set p u => exact proper_set p u sh
  | setOpened p u => exact proper_setOpened p u sh
  | subscribe b | unsubscribe n => exact trivial
  | aside a => exact a.same sh

/-- How the operations are performed and noted. -/
def conduct (α : Type) : Conduct (BoardStep α) BoardNote α where
  perform s act sh := s.perform act sh
  stations s act tr notes sh := (s.deed sh).stations act tr notes sh

end BoardStep

/-- What every operation keeps. -/
theorem yields_boardStep {o : Since} (s : BoardStep α) (act : Shell.Act α)
    (tr : Answers BoardNote α) (hact : Keeps (Posted o) act tr) (turns : List RoundTurn)
    (notes : List BoardNote) (sh : Shell α) (h : Posted o turns notes sh) :
    Yields (Posted o) turns notes ((BoardStep.conduct α).stations s act tr notes sh)
      ((BoardStep.conduct α).perform s act sh) := by
  show Yields _ _ _ _ (s.perform act sh)
  rw [s.perform_eq act sh]
  exact h.yields_deed hact (s.deed sh) (s.proper sh)

end AppShell
