/-
AppShell/Proofs/Notifications/Script.lean

Runs of a queue whose callbacks act on it.

A script is a finite tree of operations on one queue.  What is done next may
depend on the shell, and so may what a callback does: each operation comes with
scripts that answer the calls it makes, so a hook or a listener may operate on
the queue again, to any depth.  Between the operations a script may do anything
that touches neither the messages of a queue nor a handle (`Aside`).

`Script.run` performs the operations of the shell.  `Script.timeline` follows
the same run and notes, the newest first, every change of the queue at the place
where it happens, and every call of a callback, each with the names that the
shell lists at that moment.
-/
import AppShell.Proofs.Notifications.Timeline
import AppShell.Shell.Notifications

namespace AppShell

variable {α : Type}

/-- An operation on a queue or on one of its handles. -/
inductive QueueStep where
  | addOnce (m : MessageDefinition)
  | add (m : MessageDefinition)
  | notify (failure : Failure) (lead : Option String)
  | update (handle : HandleId) (m : MessageDefinition)
  | notifyHandle (handle : HandleId) (failure : Failure) (lead : Option String)
  | clear (handle : HandleId)
  | remove (id : String)
  | dismiss (id : String)

namespace QueueStep

/-- What an operation does to a shell. -/
def perform (act : Shell.Act α) (q : QueueId) (sh : Shell α) : QueueStep → Shell α
  | .addOnce m => (Shell.addMessage act q m sh).2
  | .add m => (Shell.addWithHandle act q m sh).2
  | .notify failure lead => Shell.notifyFailure act (.queue q) failure lead sh
  | .update h m => Shell.pushHandle act h m sh
  | .notifyHandle h failure lead => Shell.notifyFailure act (.handle h) failure lead sh
  | .clear h => (Shell.clearHandle act h sh).2
  | .remove id => (Shell.removeMessage act q id sh).2
  | .dismiss id => (Shell.dismissMessage act q id sh).2

end QueueStep

/-- Something that touches neither the messages of a queue, nor the names it issued, nor a
handle. -/
structure Aside (α : Type) where
  perform : Shell α → Shell α
  queues : ∀ sh (q : QueueId), (perform sh).queues[q]?.map (fun qu => (qu.messages, qu.issued)) =
    sh.queues[q]?.map fun qu => (qu.messages, qu.issued)
  handles : ∀ sh, (perform sh).handles = sh.handles

/-- A finite tree of operations, with the scripts that answer the calls of each operation. -/
inductive Script (α : Type) where
  | done
  | step (s : QueueStep) (answer : Call → Shell α → Script α) (next : Shell α → Script α)
  | aside (a : Aside α) (next : Shell α → Script α)

/-- The shell after a script. -/
def Script.run (q : QueueId) : Script α → Shell α → Shell α
  | .done, sh => sh
  | .step s answer next, sh =>
    let sh := s.perform (fun call sh => run q (answer call sh) sh) q sh
    run q (next sh) sh
  | .aside a next, sh => run q (next (a.perform sh)) (a.perform sh)

/-! ### Timelines -/

namespace Shell

/-- The moment in which a callback is called. -/
def calledMoment (q : QueueId) (sh : Shell α) : Moment :=
  ⟨.called, sh.messageIds q⟩

variable (act : Act α) (tr : Call → Shell α → Timeline) (q : QueueId)

/-- What happens while listeners are told messages. -/
def toldTimeline (told : List Notification) : List QueueListener → Shell α → Timeline
  | [], _ => []
  | l :: ls, sh =>
    let sh := sh.note (queueEvent l told)
    toldTimeline told ls (act (.turn l.callback) sh) ++
      (tr (.turn l.callback) sh ++ [calledMoment q sh])

/-- What happens while the listeners of a queue are told of a change. -/
def changedTimeline (sh : Shell α) : Timeline :=
  match sh.queues[q]? with
  | none => []
  | some qu => toldTimeline act tr q qu.messages qu.listeners.snapshot sh

/-- What happens while a queue is changed. -/
def modifyTimeline (mark : QueueMark) (f : Queue → Queue) (sh : Shell α) : Timeline :=
  let sh := sh.modifyQueue q f
  changedTimeline act tr q sh ++ [⟨mark, sh.messageIds q⟩]

/-- What happens while a message is added. -/
def addTimeline (m : MessageDefinition) (sh : Shell α) : Timeline :=
  match sh.queues[q]? with
  | none => []
  | some qu => modifyTimeline act tr q (.added (qu.pushFront m).1) (fun qu => (qu.pushFront m).2) sh

/-- What happens while a message is replaced or put back. -/
def upsertTimeline (id : String) (m : MessageDefinition) (sh : Shell α) : Timeline :=
  modifyTimeline act tr q (.updated id (decide (id ∈ sh.messageIds q))) (fun qu => qu.upsert id m) sh

/-- What happens while a message is removed, nothing if it is not listed. -/
def removeTimeline (id : String) (sh : Shell α) : Timeline :=
  if id ∈ sh.messageIds q then modifyTimeline act tr q (.removed id) (fun qu => qu.remove id) sh
  else []

/-- What happens while a hook runs. -/
def hookTimeline (h : HookId) (id : String) (sh : Shell α) : Timeline :=
  match sh.hooks[h]? with
  | none => []
  | some hook =>
    let prevented := 0 < hook.veto
    let sh := { sh with hooks := sh.hooks.modify h fun hook => { hook with veto := hook.veto - 1 } }
    let sh := sh.note (.dismissing hook.tag id prevented)
    tr (.turn hook.callback) sh ++ [calledMoment q sh]

/-- What happens while a message is dismissed. -/
def dismissTimeline (id : String) (sh : Shell α) : Timeline :=
  match sh.queues[q]?.bind fun qu => qu.find? id with
  | none => []
  | some m =>
    match m.onDismiss with
    | none => if m.dismissible then removeTimeline act tr q id sh else []
    | some h =>
      let (prevented, sh') := runHook act h id sh
      (if m.dismissible && !prevented then removeTimeline act tr q id sh' else []) ++
        hookTimeline tr q h id sh

/-- What happens while a message is pushed through a handle. -/
def pushTimeline (h : HandleId) (m : MessageDefinition) (sh : Shell α) : Timeline :=
  match sh.handles[h]? with
  | none => []
  | some handle =>
    upsertTimeline act tr q handle.id m
      { sh with handles := sh.handles.modify h fun handle => { handle with lastPushed := m } }

/-- What happens while the message of a handle is removed. -/
def clearTimeline (h : HandleId) (sh : Shell α) : Timeline :=
  match sh.handles[h]? with
  | none => []
  | some handle => removeTimeline act tr q handle.id sh

end Shell

/-- What happens during an operation. -/
def QueueStep.timeline (act : Shell.Act α) (tr : Call → Shell α → Timeline) (q : QueueId)
    (sh : Shell α) : QueueStep → Timeline
  | .addOnce m | .add m => Shell.addTimeline act tr q m sh
  | .notify failure lead => Shell.addTimeline act tr q (.ofFailure failure lead) sh
  | .update h m => Shell.pushTimeline act tr q h m sh
  | .notifyHandle h failure lead => Shell.pushTimeline act tr q h (.ofFailure failure lead) sh
  | .clear h => Shell.clearTimeline act tr q h sh
  | .remove id => Shell.removeTimeline act tr q id sh
  | .dismiss id => Shell.dismissTimeline act tr q id sh

/-- What happens during a script. -/
def Script.timeline (q : QueueId) : Script α → Shell α → Timeline
  | .done, _ => []
  | .step s answer next, sh =>
    let act : Shell.Act α := fun call sh => (answer call sh).run q sh
    let sh' := s.perform act q sh
    timeline q (next sh') sh' ++ s.timeline act (fun call sh => timeline q (answer call sh) sh) q sh
  | .aside a next, sh => timeline q (next (a.perform sh)) (a.perform sh)

end AppShell
