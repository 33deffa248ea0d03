/-
AppShell/Shell/Notifications.lean

Adding, updating and dismissing messages.

After each change every listener of the queue is told the list as it was right
after the change.  A dismissal runs the hook of the message first; the message
goes if the hook did not prevent it and the message could be dismissed when the
dismissal started.  A handle updates from what was pushed through it last, not
from what is listed.
-/
import AppShell.Shell.Basic

namespace AppShell.Shell

variable {α : Type} (act : Act α)

/-- The messages of a queue. -/
def messages (sh : Shell α) (q : QueueId) : List Notification :=
  (sh.queues[q]?.map Queue.messages).getD []

/-- The names of the messages of a queue. -/
def messageIds (sh : Shell α) (q : QueueId) : List String :=
  (sh.messages q).map Notification.id

/-- What a listener of a queue is told. -/
def queueEvent (l : QueueListener) (listed : List Notification) : Event :=
  if l.full then .messages l.label listed else .ids l.label (listed.map Notification.id)

/-- Tells the listeners of a queue its messages. -/
def queueChanged (q : QueueId) (sh : Shell α) : Shell α :=
  match sh.queues[q]? with
  | none => sh
  | some qu =>
    qu.listeners.snapshot.foldl (fun sh l =>
      act (.turn l.callback) (sh.note (queueEvent l qu.messages))) sh

/-- Changes the state of a queue without telling anyone. -/
def modifyQueue (sh : Shell α) (q : QueueId) (f : Queue → Queue) : Shell α :=
  { sh with queues := sh.queues.modify q f }

/-- Adds a message, and gives its name. -/
def addMessage (q : QueueId) (m : MessageDefinition) (sh : Shell α) : String × Shell α :=
  match sh.queues[q]? with
  | none => ("", sh)
  | some qu =>
    ((qu.pushFront m).1, queueChanged act q (sh.modifyQueue q fun qu => (qu.pushFront m).2))

/-- Replaces the message of a name, or puts it at the front if it is not listed. -/
def upsertMessage (q : QueueId) (id : String) (m : MessageDefinition) (sh : Shell α) : Shell α :=
  queueChanged act q (sh.modifyQueue q fun qu => qu.upsert id m)

/-- Removes a message, and tells whether it was listed. -/
def removeMessage (q : QueueId) (id : String) (sh : Shell α) : Bool × Shell α :=
  if id ∈ sh.messageIds q then
    (true, queueChanged act q (sh.modifyQueue q fun qu => qu.remove id))
  else (false, sh)

/-- Runs a hook for the message of a name, and tells whether it prevents the dismissal. -/
def runHook (h : HookId) (id : String) (sh : Shell α) : Bool × Shell α :=
  match sh.hooks[h]? with
  | none => (false, sh)
  | some hook =>
    let prevented := 0 < hook.veto
    let sh := { sh with hooks := sh.hooks.modify h fun hook => { hook with veto := hook.veto - 1 } }
    (prevented, act (.turn hook.callback) (sh.note (.dismissing hook.tag id prevented)))

/-- Dismisses a message, and tells whether it was removed. -/
def dismissMessage (q : QueueId) (id : String) (sh : Shell α) : Bool × Shell α :=
  match sh.queues[q]?.bind fun qu => qu.find? id with
  | none => (false, sh)
  | some m =>
    let (prevented, sh) := match m.onDismiss with
      | none => (false, sh)
      | some h => runHook act h id sh
    if m.dismissible && !prevented then removeMessage act q id sh else (false, sh)

/-! ### Handles -/

/-- Adds a message with a handle for it, and gives both. -/
def addWithHandle (q : QueueId) (m : MessageDefinition) (sh : Shell α) :
    (String × HandleId) × Shell α :=
  let (id, sh) := addMessage act q m sh
  ((id, sh.handles.size), { sh with handles := sh.handles.push ⟨q, id, m⟩ })

/-- Pushes a message through a handle. -/
def pushHandle (h : HandleId) (m : MessageDefinition) (sh : Shell α) : Shell α :=
  match sh.handles[h]? with
  | none => sh
  | some handle =>
    let sh := { sh with
      handles := sh.handles.modify h fun handle => { handle with lastPushed := m } }
    upsertMessage act handle.queue handle.id m sh

/-- Updates the message of a handle: the update is given what was pushed last, and may itself
change the shell. -/
def updateHandle (h : HandleId)
    (update : MessageDefinition → Shell α → MessageDefinition × Shell α) (sh : Shell α) : Shell α :=
  match sh.handles[h]? with
  | none => sh
  | some handle =>
    let (m, sh) := update handle.lastPushed sh
    pushHandle act h m sh

/-- Removes the message of a handle, and tells whether it was listed. -/
def clearHandle (h : HandleId) (sh : Shell α) : Bool × Shell α :=
  match sh.handles[h]? with
  | none => (false, sh)
  | some handle => removeMessage act handle.queue handle.id sh

/-! ### Failures -/

/-- Sends the notification of a failure to a target. -/
def notifyFailure (target : SinkTarget) (failure : Failure) (lead : Option String)
    (sh : Shell α) : Shell α :=
  let m := MessageDefinition.ofFailure failure lead
  match target with
  | .queue q => (addMessage act q m sh).2
  | .handle h => pushHandle act h m sh

/-! ### Listening -/

/-- Attaches a listener to a queue. -/
def listenQueue (sh : Shell α) (q : QueueId) (l : QueueListener) : SubscriptionId × Shell α :=
  match sh.queues[q]? with
  | none => sh.addSubscription (.queue q) 0
  | some qu =>
    let (number, listeners) := qu.listeners.insert l
    (sh.modifyQueue q fun qu => { qu with listeners := listeners }).addSubscription
      (.queue q) number

end AppShell.Shell
