/-
AppShell/Proofs/Notifications/Journal.lean

Journals of the handles of a queue.

A journal lists the handles that were opened and what was pushed through each,
the newest first; clones of a handle share its number, so that the journal does
not tell them apart.  What a handle pushed last reads off the journal alone: it
is the base of the handle with the revisions pushed since, in their order
(`Journal.lastPushed`).

The steps are the operations on a queue and its handles.  A push is noted where
the handle and the queue change, before the listeners are told; a handle is
opened once the listeners were told of its message.  Hooks and listeners may take
steps on the queue again.  An error sink sends a failure to the queue or to a
handle, as the steps `notify` and `notifyHandle` do.
-/
import AppShell.Proofs.Course
import AppShell.Proofs.Notifications.Script
import AppShell.Revision

namespace AppShell

/-- A handle that was opened, or a push through one. -/
inductive JournalMark where
  | opened (h : HandleId) (base : MessageDefinition)
  | pushed (h : HandleId) (revision : Revision MessageDefinition)

/-- What was done with the handles of a queue, the newest first. -/
abbrev Journal := List JournalMark

namespace Journal

/-- The message that a handle was opened with. -/
def base (h : HandleId) : Journal → Option MessageDefinition
  | [] => none
  | .opened h' m :: past => if h' = h then some m else base h past
  | .pushed _ _ :: past => base h past

/-- The revisions that were pushed through a handle since it was opened, in their order. -/
def pushes (h : HandleId) : Journal → List (Revision MessageDefinition)
  | [] => []
  | .opened h' _ :: past => if h' = h then [] else pushes h past
  | .pushed h' revision :: past => if h' = h then pushes h past ++ [revision] else pushes h past

/-- What was pushed last through a handle. -/
def lastPushed (past : Journal) (h : HandleId) : Option MessageDefinition :=
  (past.base h).map fun m => Revision.applyAll m (past.pushes h)

theorem lastPushed_opened (past : Journal) (h : HandleId) (m : MessageDefinition) (h' : HandleId) :
    lastPushed (.opened h m :: past) h' = if h = h' then some m else past.lastPushed h' := by
  by_cases he : h = h' <;> simp [lastPushed, base, pushes, he]

theorem lastPushed_pushed (past : Journal) (h : HandleId) (revision : Revision MessageDefinition)
    (h' : HandleId) :
    lastPushed (.pushed h revision :: past) h' =
      if h = h' then (past.lastPushed h').map revision.apply else past.lastPushed h' := by
  by_cases he : h = h' <;>
    simp [lastPushed, base, pushes, he, Option.map_map, Function.comp_def]

end Journal

/-! ### Telling the listeners of a queue -/

namespace Shell

variable {α : Type}

/-- The callbacks of the listeners of a queue, and what each is told. -/
def queueTold (sh : Shell α) (q : QueueId) : List (CallbackId × Event) :=
  (sh.queues[q]?.map fun qu =>
    qu.listeners.snapshot.map fun l => (l.callback, queueEvent l qu.messages)).getD []

theorem queueChanged_eq (act : Act α) (q : QueueId) (sh : Shell α) :
    queueChanged act q sh = callEach act (sh.queueTold q) sh := by
  rcases h : sh.queues[q]? with - | qu
  · simp only [queueChanged, queueTold, h]
    rfl
  · simp only [queueChanged, queueTold, h, callEach, Option.map_some, Option.getD_some,
      List.foldl_map]

/-- The shell in which the listeners of a queue are told of a push. -/
def pushed (sh : Shell α) (h : HandleId) (handle : Handle) (m : MessageDefinition) : Shell α :=
  { sh with
    handles := sh.handles.modify h fun handle => { handle with lastPushed := m }
  }.modifyQueue handle.queue fun qu => qu.upsert handle.id m

theorem updateHandle_eq {sh : Shell α} {h : HandleId} {handle : Handle}
    (hh : sh.handles[h]? = some handle) (act : Act α) (revision : Revision MessageDefinition) :
    updateHandle act h revision.update sh = queueChanged act handle.queue
      (sh.pushed h handle (revision.apply handle.lastPushed)) := by
  simp only [updateHandle, pushHandle, Revision.update, hh]
  rfl

/-- A failure is pushed through a handle as any other message is. -/
theorem notifyHandle_eq (act : Act α) (h : HandleId) (failure : Failure) (lead : Option String)
    (sh : Shell α) : notifyFailure act (.handle h) failure lead sh =
      updateHandle act h (Revision.value (.ofFailure failure lead)).update sh := by
  rcases hh : sh.handles[h]? with - | handle <;>
    simp only [notifyFailure, updateHandle, pushHandle, hh, Revision.update, Revision.apply]

/-! ### Stations of the operations -/

variable (act : Act α) (tr : Answers JournalMark α) (q : QueueId) (past : Journal)

/-- The stations of a change of a queue. -/
def queueStations (sh : Shell α) : Stations JournalMark α :=
  changeStations act tr (sh.queueTold q) past sh

/-- The stations of a push through a handle. -/
def pushStations (h : HandleId) (revision : Revision MessageDefinition) (sh : Shell α) :
    Stations JournalMark α :=
  match sh.handles[h]? with
  | none => []
  | some handle =>
    queueStations act tr q (.pushed h revision :: past)
      (sh.pushed h handle (revision.apply handle.lastPushed))

/-- The stations of an addition with a handle, which is opened in the end. -/
def openStations (m : MessageDefinition) (sh : Shell α) : Stations JournalMark α :=
  let during := queueStations act tr q past (sh.modifyQueue q fun qu => (qu.pushFront m).2)
  let added := addWithHandle act q m sh
  ⟨.opened added.1.2 m :: during.past past, added.2⟩ :: during

/-- The stations of a removal, none if the message is not listed. -/
def removeStations (id : String) (sh : Shell α) : Stations JournalMark α :=
  if id ∈ sh.messageIds q then
    queueStations act tr q past (sh.modifyQueue q fun qu => qu.remove id)
  else []

/-- The stations of a hook. -/
def hookStations (h : HookId) (id : String) (sh : Shell α) : Stations JournalMark α :=
  match sh.hooks[h]? with
  | none => []
  | some hook =>
    let sh := { sh with hooks := sh.hooks.modify h fun hook => { hook with veto := hook.veto - 1 } }
    tr (.turn hook.callback) past (sh.note (.dismissing hook.tag id (decide (0 < hook.veto))))

/-- The stations of a dismissal: those of the hook, and then those of the removal. -/
def dismissStations (id : String) (sh : Shell α) : Stations JournalMark α :=
  match sh.queues[q]?.bind fun qu => qu.find? id with
  | none => []
  | some m =>
    match m.onDismiss with
    | none => if m.dismissible then removeStations act tr q past id sh else []
    | some h =>
      let during := hookStations tr past h id sh
      let (prevented, sh) := runHook act h id sh
      if m.dismissible && !prevented then
        removeStations act tr q (during.past past) id sh ++ during
      else during

end Shell

/-! ### Steps -/

/-- An operation on a queue or one of its handles, or something else. -/
inductive HandleStep (α : Type) where
  | addOnce (m : MessageDefinition)
  | add (m : MessageDefinition)
  | notify (failure : Failure) (lead : Option String)
  | update (h : HandleId) (revision : Revision MessageDefinition)
  | notifyHandle (h : HandleId) (failure : Failure) (lead : Option String)
  | clear (h : HandleId)
  | remove (id : String)
  | dismiss (id : String)
  | aside (a : Aside α)

namespace HandleStep

variable {α : Type}

/-- What a step does to a shell. -/
def perform (q : QueueId) (act : Shell.Act α) (sh : Shell α) : HandleStep α → Shell α
  | .addOnce m => (Shell.addMessage act q m sh).2
  | .add m => (Shell.addWithHandle act q m sh).2
  | .notify failure lead => Shell.notifyFailure act (.queue q) failure lead sh
  | .update h revision => Shell.updateHandle act h revision.update sh
  | .notifyHandle h failure lead => Shell.notifyFailure act (.handle h) failure lead sh
  | .clear h => (Shell.clearHandle act h sh).2
  | .remove id => (Shell.removeMessage act q id sh).2
  | .dismiss id => (Shell.dismissMessage act q id sh).2
  | .aside a => a.perform sh

/-- The stations of a step. -/
def stations (q : QueueId) (act : Shell.Act α) (tr : Answers JournalMark α) (past : Journal)
    (sh : Shell α) : HandleStep α → Stations JournalMark α
  | .addOnce m =>
    Shell.queueStations act tr q past (sh.modifyQueue q fun qu => (qu.pushFront m).2)
  | .notify failure lead =>
    Shell.queueStations act tr q past
      (sh.modifyQueue q fun qu => (qu.pushFront (.ofFailure failure lead)).2)
  | .add m => Shell.openStations act tr q past m sh
  | .update h revision => Shell.pushStations act tr q past h revision sh
  | .notifyHandle h failure lead =>
    Shell.pushStations act tr q past h (.value (.ofFailure failure lead)) sh
  | .clear h =>
    match sh.handles[h]? with
    | none => []
    | some handle => Shell.removeStations act tr q past handle.id sh
  | .remove id => Shell.removeStations act tr q past id sh
  | .dismiss id => Shell.dismissStations act tr q past id sh
  | .aside _ => []

/-- How the steps on a queue are performed and noted. -/
def conduct (α : Type) (q : QueueId) : Conduct (HandleStep α) JournalMark α where
  perform s act sh := s.perform q act sh
  stations s act tr past sh := s.stations q act tr past sh

end HandleStep

end AppShell
