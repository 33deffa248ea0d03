/-
AppShell/Proofs/Notifications/Shape.lean

The list of a queue, whatever its callbacks do.

`Records q t sh` says that the timeline `t` ends in the state that the queue has
in the shell, that it is lawful, and that all handles are handles of the queue
with names that it issued.  Every change of the queue adds a moment that follows
from the past, so every operation keeps it, provided that what answers its calls
does (`Faithful`); by induction on the tree every script does
(`Script.records_run`).

The main statement is `listed_in_order`: at every moment of every run, also
while callbacks run, the listed names are distinct and were issued, they are
those that were inserted after their last removal, and they stand in the order
of these insertions.
-/
import AppShell.Proofs.Notifications.Script

namespace AppShell

variable {α : Type}

/-- A lawful timeline that ends in the state of a queue. -/
structure Records (q : QueueId) (t : Timeline) (sh : Shell α) : Prop where
  queue : ∃ qu, sh.queues[q]? = some qu ∧ qu.ids = t.listed ∧ qu.issued = t.issued
  handles : ∀ (h : HandleId) handle, sh.handles[h]? = some handle →
    handle.queue = q ∧ handle.id ∈ Ids.firstSequential t.issued
  lawful : t.Lawful

/-- What is answered to a call is what a timeline tells of it. -/
def Faithful (act : Shell.Act α) (tr : Call → Shell α → Timeline) (q : QueueId) : Prop :=
  ∀ call sh t, Records q t sh → Records q (tr call sh ++ t) (act call sh)

namespace Records

variable {q : QueueId} {t : Timeline} {sh sh' : Shell α}

/-- The identifiers listed are those that the timeline lists. -/
theorem messageIds (hr : Records q t sh) : sh.messageIds q = t.listed := by
  obtain ⟨qu, hqu, hids, -⟩ := hr.queue
  rw [← hids, Shell.messageIds, Shell.messages, hqu]
  rfl

/-- What the timeline records is a matter of queues and handles alone. -/
theorem of_frame (hr : Records q t sh) (hq : sh'.queues = sh.queues)
    (hh : sh'.handles = sh.handles) : Records q t sh' where
  queue := by rw [hq]; exact hr.queue
  handles h handle hh' := hr.handles h handle (by rw [← hh]; exact hh')
  lawful := hr.lawful

/-- The call of a callback is a moment in which nothing changes. -/
theorem called (hr : Records q t sh) : Records q (Shell.calledMoment q sh :: t) sh where
  queue := by
    obtain ⟨qu, hqu, hids, hissued⟩ := hr.queue
    exact ⟨qu, hqu, hids.trans hr.messageIds.symm, hissued⟩
  handles := hr.handles
  lawful := ⟨hr.lawful, hr.messageIds⟩

/-- A change of the queue is a moment of its timeline. -/
theorem modifyQueue (hr : Records q t sh) {mark : QueueMark} {f : Queue → Queue}
    (hf : ∀ qu, sh.queues[q]? = some qu → qu.ids = t.listed → qu.issued = t.issued →
      Moment.Follows t ⟨mark, (f qu).ids⟩ ∧
        (f qu).issued = Timeline.issued (⟨mark, (f qu).ids⟩ :: t)) :
    Records q (⟨mark, (sh.modifyQueue q f).messageIds q⟩ :: t) (sh.modifyQueue q f) := by
  obtain ⟨qu, hqu, hids, hissued⟩ := hr.queue
  obtain ⟨hfollows, hissued'⟩ := hf qu hqu hids hissued
  have hget : (sh.modifyQueue q f).queues[q]? = some (f qu) := by
    show (sh.queues.modify q f)[q]? = _
    rw [Array.getElem?_modify, if_pos rfl, hqu]
    rfl
  have hlisted : (sh.modifyQueue q f).messageIds q = (f qu).ids := by
    rw [Shell.messageIds, Shell.messages, hget]
    rfl
  rw [hlisted]
  refine ⟨⟨f qu, hget, rfl, hissued'⟩, fun h handle hh => ?_, hr.lawful, hfollows⟩
  obtain ⟨hq, hid⟩ := hr.handles h handle hh
  refine ⟨hq, Ids.firstSequential_mono ?_ hid⟩
  have happend := Timeline.issued_append [⟨mark, (f qu).ids⟩] t
  rw [List.singleton_append] at happend
  omega

variable {act : Shell.Act α} {tr : Call → Shell α → Timeline}

/-- Telling listeners records what their callbacks do, one after the other. -/
theorem told (hact : Faithful act tr q) (told : List Notification) (ls : List QueueListener)
    (hr : Records q t sh) :
    Records q (Shell.toldTimeline act tr q told ls sh ++ t)
      (ls.foldl (fun sh l => act (.turn l.callback) (sh.note (Shell.queueEvent l told))) sh) := by
  induction ls generalizing sh t with
  | nil => exact hr
  | cons l ls ih =>
    have hnoted : Records q t (sh.note (Shell.queueEvent l told)) := hr.of_frame rfl rfl
    have hanswered := hact (.turn l.callback) _ _ hnoted.called
    have hrest := ih hanswered
    rw [List.foldl_cons, Shell.toldTimeline]
    simpa only [List.append_assoc, List.singleton_append] using hrest

/-- A change of the queue records what the listeners do who are told. -/
theorem queueChanged (hact : Faithful act tr q) (hr : Records q t sh) :
    Records q (Shell.changedTimeline act tr q sh ++ t) (Shell.queueChanged act q sh) := by
  obtain ⟨qu, hqu, -, -⟩ := hr.queue
  simp only [Shell.changedTimeline, Shell.queueChanged, hqu]
  exact told hact qu.messages qu.listeners.snapshot hr

/-- A change of the queue, and what its listeners do then. -/
theorem change (hact : Faithful act tr q) (hr : Records q t sh) {mark : QueueMark}
    {f : Queue → Queue}
    (hf : ∀ qu, sh.queues[q]? = some qu → qu.ids = t.listed → qu.issued = t.issued →
      Moment.Follows t ⟨mark, (f qu).ids⟩ ∧
        (f qu).issued = Timeline.issued (⟨mark, (f qu).ids⟩ :: t)) :
    Records q (Shell.modifyTimeline act tr q mark f sh ++ t)
      (Shell.queueChanged act q (sh.modifyQueue q f)) := by
  have hchanged := queueChanged hact (hr.modifyQueue hf)
  rw [Shell.modifyTimeline]
  simpa only [List.append_assoc, List.singleton_append] using hchanged

/-! ### Operations -/

/-- An addition puts a new name first. -/
theorem addMessage (hact : Faithful act tr q) (m : MessageDefinition) (hr : Records q t sh) :
    Records q (Shell.addTimeline act tr q m sh ++ t) (Shell.addMessage act q m sh).2 := by
  obtain ⟨qu, hqu, -, -⟩ := hr.queue
  simp only [Shell.addTimeline, Shell.addMessage, hqu]
  refine hr.change hact fun qu' hqu' hids hissued => ?_
  rw [hqu] at hqu'
  cases hqu'
  refine ⟨⟨?_, ?_⟩, ?_⟩
  · rw [← hissued]
    rfl
  · rw [← hids]
    rfl
  · show qu.issued + 1 = t.issued + 1
    rw [hissued]

/-- The name that an addition gives is issued by then. -/
theorem addMessage_issued (m : MessageDefinition) (hr : Records q t sh) :
    (Shell.addMessage act q m sh).1 ∈
      Ids.firstSequential (Shell.addTimeline act tr q m sh ++ t).issued := by
  obtain ⟨qu, hqu, -, hissued⟩ := hr.queue
  simp only [Shell.addTimeline, Shell.addMessage, hqu, Shell.modifyTimeline]
  refine Ids.firstSequential_mono ?_ (Ids.sequential_mem_firstSequential qu.issued)
  rw [List.append_assoc, Timeline.issued_append, List.singleton_append, hissued]
  exact Nat.le_add_left _ _

/-- A handle is opened on the message that was added before anybody was told. -/
theorem addWithHandle (hact : Faithful act tr q) (m : MessageDefinition) (hr : Records q t sh) :
    Records q (Shell.addTimeline act tr q m sh ++ t) (Shell.addWithHandle act q m sh).2 := by
  have hadd := hr.addMessage hact m
  have hid : (Shell.addMessage act q m sh).1 ∈
      Ids.firstSequential (Shell.addTimeline act tr q m sh ++ t).issued := hr.addMessage_issued m
  refine ⟨hadd.queue, fun h handle hh => ?_, hadd.lawful⟩
  change ((Shell.addMessage act q m sh).2.handles.push
    ⟨q, (Shell.addMessage act q m sh).1, m⟩)[h]? = some handle at hh
  rw [Array.getElem?_push] at hh
  split at hh
  · cases hh
    exact ⟨rfl, hid⟩
  · exact hadd.handles h handle hh

/-- An update leaves a listed name in its place, and puts any other one first. -/
theorem upsertMessage (hact : Faithful act tr q) {id : String}
    (hid : id ∈ Ids.firstSequential t.issued) (m : MessageDefinition) (hr : Records q t sh) :
    Records q (Shell.upsertTimeline act tr q id m sh ++ t) (Shell.upsertMessage act q id m sh) := by
  refine hr.change hact fun qu hqu hids hissued => ⟨⟨hid, ?_, ?_⟩, hissued⟩
  · rw [hr.messageIds]
  · show (qu.upsert id m).ids = _
    rw [Queue.ids_upsert, hids]

/-- A removal takes a listed name out. -/
theorem removeMessage (hact : Faithful act tr q) (id : String) (hr : Records q t sh) :
    Records q (Shell.removeTimeline act tr q id sh ++ t) (Shell.removeMessage act q id sh).2 := by
  rw [Shell.removeTimeline, Shell.removeMessage]
  split
  · rename_i hmem
    rw [hr.messageIds] at hmem
    refine hr.change hact fun qu hqu hids hissued => ⟨⟨hmem, ?_⟩, hissued⟩
    show (qu.remove id).ids = _
    rw [Queue.ids_remove, hids]
  · exact hr

/-- A hook records what its script does. -/
theorem runHook (hact : Faithful act tr q) (h : HookId) (id : String) (hr : Records q t sh) :
    Records q (Shell.hookTimeline tr q h id sh ++ t) (Shell.runHook act h id sh).2 := by
  rcases e : sh.hooks[h]? with - | hook
  · simp only [Shell.hookTimeline, Shell.runHook, e]
    exact hr
  · simp only [Shell.hookTimeline, Shell.runHook, e, List.append_assoc, List.singleton_append]
    refine hact _ _ _ (called ?_)
    exact hr.of_frame rfl rfl

/-- A dismissal runs the hook first, and removes the message from what is there then. -/
theorem dismissMessage (hact : Faithful act tr q) (id : String) (hr : Records q t sh) :
    Records q (Shell.dismissTimeline act tr q id sh ++ t) (Shell.dismissMessage act q id sh).2 := by
  rcases e : sh.queues[q]?.bind fun qu => qu.find? id with - | m
  · simp only [Shell.dismissTimeline, Shell.dismissMessage, e]
    exact hr
  · rcases eh : m.onDismiss with - | h
    · simp only [Shell.dismissTimeline, Shell.dismissMessage, e, eh]
      by_cases hd : m.dismissible = true
      · simp only [hd, if_true, Bool.not_false, Bool.and_self]
        exact hr.removeMessage hact id
      · simp only [hd]
        exact hr
    · -- the removal starts from what the hook left, whatever that is
      have hhook := hr.runHook hact h id
      simp only [Shell.dismissTimeline, Shell.dismissMessage, e, eh, List.append_assoc]
      split
      · exact hhook.removeMessage hact id
      · exact hhook

/-- A push that upserts under a name that is gone lists the name again, as the newest. -/
theorem pushHandle (hact : Faithful act tr q) (h : HandleId) (m : MessageDefinition)
    (hr : Records q t sh) :
    Records q (Shell.pushTimeline act tr q h m sh ++ t) (Shell.pushHandle act h m sh) := by
  rcases e : sh.handles[h]? with - | handle
  · simp only [Shell.pushTimeline, Shell.pushHandle, e]
    exact hr
  · obtain ⟨hq, hid⟩ := hr.handles h handle e
    have hpushed : Records q t { sh with
        handles := sh.handles.modify h fun handle => { handle with lastPushed := m } } := by
      refine ⟨hr.queue, fun h' handle' hh' => ?_, hr.lawful⟩
      change (sh.handles.modify h _)[h']? = some handle' at hh'
      rw [Array.getElem?_modify] at hh'
      split at hh'
      · obtain ⟨old, hold, rfl⟩ := Option.map_eq_some_iff.1 hh'
        exact hr.handles h' old hold
      · exact hr.handles h' handle' hh'
    simp only [Shell.pushTimeline, Shell.pushHandle, e, hq]
    exact hpushed.upsertMessage hact hid m

/-- Clearing a handle takes its name off the list, if it is listed. -/
theorem clearHandle (hact : Faithful act tr q) (h : HandleId) (hr : Records q t sh) :
    Records q (Shell.clearTimeline act tr q h sh ++ t) (Shell.clearHandle act h sh).2 := by
  rcases e : sh.handles[h]? with - | handle
  · simp only [Shell.clearTimeline, Shell.clearHandle, e]
    exact hr
  · obtain ⟨hq, -⟩ := hr.handles h handle e
    simp only [Shell.clearTimeline, Shell.clearHandle, e, hq]
    exact hr.removeMessage hact handle.id

/-- An operation does to the queue what its timeline tells. -/
theorem perform (hact : Faithful act tr q) (s : QueueStep) (hr : Records q t sh) :
    Records q (s.timeline act tr q sh ++ t) (s.perform act q sh) := by
  cases s with
  | addOnce m => exact hr.addMessage hact m
  | add m => exact hr.addWithHandle hact m
  | notify failure lead => exact hr.addMessage hact _
  | update h m => exact hr.pushHandle hact h m
  | notifyHandle h failure lead => exact hr.pushHandle hact h _
  | clear h => exact hr.clearHandle hact h
  | remove id => exact hr.removeMessage hact id
  | dismiss id => exact hr.dismissMessage hact id

/-- A step beside the queues is not in the timeline. -/
theorem aside (a : Aside α) (hr : Records q t sh) : Records q t (a.perform sh) where
  queue := by
    obtain ⟨qu, hqu, hids, hissued⟩ := hr.queue
    have hsame := a.queues sh q
    rw [hqu, Option.map_some] at hsame
    obtain ⟨qu', hqu', hparts⟩ := Option.map_eq_some_iff.1 hsame
    refine ⟨qu', hqu', ?_, ?_⟩
    · rw [← hids, Queue.ids, (Prod.mk.inj hparts).1]
      rfl
    · rw [← hissued, (Prod.mk.inj hparts).2]
  handles h handle hh := hr.handles h handle (by rw [← a.handles sh]; exact hh)
  lawful := hr.lawful

end Records

/-! ### Runs -/

/-- A script does to the queue what its timeline tells, and so does every script that answers a
call. -/
theorem Script.records_run {q : QueueId} {t : Timeline} {sh : Shell α} (script : Script α)
    (hr : Records q t sh) : Records q (script.timeline q sh ++ t) (script.run q sh) := by
  induction script generalizing sh t with
  | done => exact hr
  | step s answer next ihAnswer ihNext =>
    -- the calls of this operation are answered by smaller scripts
    have hact : Faithful (fun call sh => (answer call sh).run q sh)
        (fun call sh => (answer call sh).timeline q sh) q :=
      fun call sh t hr => ihAnswer call sh hr
    rw [Script.run, Script.timeline, List.append_assoc]
    exact ihNext _ (hr.perform hact s)
  | aside a next ih => exact ih _ (hr.aside a)

/-- At every moment of every run of a new queue the list has the shape that the past gives it, and
follows from the past; and the run ends in what was listed last. -/
theorem listed_in_order {q : QueueId} {start : Shell α} {listeners : Listeners QueueListener}
    (hq : start.queues[q]? = some ⟨[], 0, listeners⟩) (hh : start.handles = #[])
    (script : Script α) :
    (script.run q start).messageIds q = (script.timeline q start).listed ∧
    ∀ m past, m :: past <:+ script.timeline q start →
      Timeline.Shaped (m :: past) ∧ m.Follows past := by
  have hstart : Records q [] start := by
    refine ⟨⟨_, hq, rfl, rfl⟩, fun h handle he => ?_, trivial⟩
    rw [hh] at he
    simp at he
  have hrun := script.records_run hstart
  rw [List.append_nil] at hrun
  refine ⟨hrun.messageIds, fun m past hsuffix => ?_⟩
  have hlawful : Timeline.Lawful (m :: past) := hrun.lawful.suffix hsuffix
  exact ⟨hlawful.shaped, hlawful.2⟩

/-- A message whose hook may operate on the queue. -/
def hookedMessage : MessageDefinition :=
  ⟨.info, none, .text "hooked", true, false, some 0⟩

/-- The hook clears the message that is being dismissed and puts it back; the dismissal removes it
all the same, and a later update puts it back once more. -/
def reentrantScript : Script Unit :=
  .step (.add hookedMessage) (fun _ _ => .done) fun _ =>
  .step (.addOnce (.ofText .info "other")) (fun _ _ => .done) fun _ =>
  .step (.dismiss "n1") (fun _ _ =>
    .step (.clear 0) (fun _ _ => .done) fun _ =>
    .step (.update 0 hookedMessage) (fun _ _ => .done) fun _ => .done) fun _ =>
  .step (.update 0 hookedMessage) (fun _ _ => .done) fun _ => .done

/-- A shell with one queue and one hook. -/
def hookedShell : Shell Unit :=
  { Shell.empty with queues := #[.empty], hooks := #[⟨.null, 0, 0⟩] }

/-- A hook that clears the message being dismissed and puts it back: the list still has the shape
that its timeline gives it. -/
theorem listed_in_order_reentrantScript :
    ∃ m past, reentrantScript.timeline 0 hookedShell = m :: past ∧
      m.listed = ["n1", "n2"] ∧ Timeline.Shaped (m :: past) := by
  have hqueue : hookedShell.queues[0]? = some ⟨[], 0, .empty⟩ := rfl
  obtain ⟨-, hshaped⟩ := listed_in_order hqueue rfl reentrantScript
  exact ⟨_, _, rfl, rfl, (hshaped _ _ (List.suffix_refl _)).1⟩

end AppShell
