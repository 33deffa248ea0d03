/-
AppShell/Proofs/Notifications/Dismissal.lean

What a dismissal goes by.

A dismissal looks its message up and runs the hook of the message; then it takes
the name out, if the message that it looked up could be dismissed and the hook
did not prevent it.  Meanwhile the hook may do anything with the queue and its
handles, and what it leaves under the name is not looked at again.  So a message
whose owner has just made it permanent is dismissed all the same
(`dismissed_permanent`).

`Shell.Dismisses` says what a dismissal does, and how the message that is listed
when the hook is done may differ from the one that was looked up: its own handle
pushed it meanwhile.  For handles keep their names, whatever is done
(`HandleStep.namesKept_run`), and a message without a handle stays as it was
added (`Noted.pin`).

The main statement is `dismissed_at_station`: this holds of every listed message,
at every station of every run.
-/
import AppShell.Proofs.Notifications.Handles

namespace AppShell

variable {α : Type} {q : QueueId} {id : String} {m : MessageDefinition} {sh sh' sh'' : Shell α}
  {act : Shell.Act α}

/-! ### Dismissals and their hooks -/

namespace Shell

/-- The message that a queue lists under a name. -/
def message? (sh : Shell α) (q : QueueId) (id : String) : Option MessageDefinition :=
  sh.queues[q]?.bind fun qu => qu.find? id

/-- Whether the hook of a message prevents its dismissal, and the shell that the hook leaves. -/
def hooked (act : Act α) (id : String) (m : MessageDefinition) (sh : Shell α) : Bool × Shell α :=
  match m.onDismiss with
  | none => (false, sh)
  | some h => runHook act h id sh

/-- What was noted by the time the hook of a message is done. -/
def hookedPast (tr : Answers JournalMark α) (past : Journal) (id : String) (m : MessageDefinition)
    (sh : Shell α) : Journal :=
  match m.onDismiss with
  | none => past
  | some h => (hookStations tr past h id sh).past past

/-- A removal answers whether the name was listed. -/
theorem answer_removeMessage (act : Act α) (q : QueueId) (id : String) (sh : Shell α) :
    (removeMessage act q id sh).1 = decide (id ∈ sh.messageIds q) := by
  rw [removeMessage]
  by_cases hid : id ∈ sh.messageIds q
  · rw [if_pos hid, decide_eq_true hid]
  · rw [if_neg hid, decide_eq_false hid]

/-- A refused removal leaves everything as it was. -/
theorem removeMessage_of_refused (h : (removeMessage act q id sh).1 = false) :
    (removeMessage act q id sh).2 = sh := by
  rw [answer_removeMessage, decide_eq_false_iff_not] at h
  rw [removeMessage, if_neg h]

/-- There is nothing to dismiss under a name that is not listed: no hook runs. -/
theorem dismissMessage_of_none (hm : sh.message? q id = none) (act : Act α) :
    dismissMessage act q id sh = (false, sh) := by
  unfold message? at hm
  simp only [dismissMessage, hm]

/-- A dismissal goes by the message that it looked up before the hook ran. -/
theorem dismissMessage_eq (hm : sh.message? q id = some m) (act : Act α) :
    dismissMessage act q id sh =
      if m.dismissible && !(hooked act id m sh).1 then removeMessage act q id (hooked act id m sh).2
      else (false, (hooked act id m sh).2) := by
  unfold message? at hm
  simp only [dismissMessage, hm]
  rfl

/-- A dismissal answers whether the message was dismissible when looked up, the hook did not prevent
it, and the name is still listed after the hook. -/
theorem answer_dismissMessage (hm : sh.message? q id = some m) (act : Act α) :
    (dismissMessage act q id sh).1 = (m.dismissible && !(hooked act id m sh).1 &&
      decide (id ∈ (hooked act id m sh).2.messageIds q)) := by
  rw [dismissMessage_eq hm]
  split
  · next hd => rw [answer_removeMessage, hd, Bool.true_and]
  · next hd => rw [Bool.eq_false_iff.2 hd, Bool.false_and]

/-- A refused dismissal leaves the state that the hook left. -/
theorem dismissMessage_of_refused (hm : sh.message? q id = some m)
    (h : (dismissMessage act q id sh).1 = false) :
    (dismissMessage act q id sh).2 = (hooked act id m sh).2 := by
  rw [dismissMessage_eq hm] at h ⊢
  split
  · -- the hook has removed the message itself
    next hd =>
    rw [if_pos hd] at h
    exact removeMessage_of_refused h
  · rfl

/-- A removal leaves the messages of every other name, in their order. -/
theorem messages_remove (sh : Shell α) (q : QueueId) (id : String) :
    (sh.modifyQueue q fun qu => qu.remove id).messages q =
      (sh.messages q).filter fun n => n.id != id := by
  rw [messages, messages, modifyQueue, Array.getElem?_modify, if_pos rfl]
  rcases sh.queues[q]? with - | qu <;> rfl

/-- What is found under a name is listed under it. -/
theorem mem_messages_of_message? (hm : sh.message? q id = some m) : ⟨id, m⟩ ∈ sh.messages q := by
  obtain ⟨qu, hqu, hfind⟩ := Option.bind_eq_some_iff.1 hm
  obtain ⟨n, hn, rfl⟩ := Option.map_eq_some_iff.1 hfind
  have hid : n.id = id := by simpa using List.find?_some hn
  rw [messages, hqu, ← hid]
  exact List.mem_of_find?_eq_some hn

/-! ### Names of handles -/

/-- A push changes nothing of the handles but what was pushed last. -/
theorem map_handles_pushed {γ : Type} {f : Handle → γ} (sh : Shell α) (i : HandleId)
    (handle : Handle) (m : MessageDefinition)
    (hf : ∀ handle, f { handle with lastPushed := m } = f handle) :
    (sh.pushed i handle m).handles.toList.map f = sh.handles.toList.map f := by
  refine List.ext_getElem? fun j => ?_
  simp only [List.getElem?_map, Array.getElem?_toList, Noted.handles_pushed]
  split
  · rw [Option.map_map]
    exact congrArg (Option.map · _) (funext hf)
  · rfl

/-- The handles that were there are still there, under their names. -/
def NamesKept (sh sh' : Shell α) : Prop :=
  sh.handles.toList.map Handle.id <+: sh'.handles.toList.map Handle.id

namespace NamesKept

theorem refl (sh : Shell α) : NamesKept sh sh := List.prefix_refl _

theorem trans (h : NamesKept sh sh') (h' : NamesKept sh' sh'') : NamesKept sh sh'' :=
  List.IsPrefix.trans h h'

/-- A step that leaves the handles alone keeps their names. -/
theorem of_handles (h : sh'.handles = sh.handles) : NamesKept sh sh' := by
  show sh.handles.toList.map Handle.id <+: sh'.handles.toList.map Handle.id
  exact h ▸ List.prefix_refl _

/-- A handle that was there is there, and has its name. -/
theorem exists_handle (h : NamesKept sh sh') {i : HandleId} {handle : Handle}
    (hi : sh.handles[i]? = some handle) :
    ∃ handle', sh'.handles[i]? = some handle' ∧ handle'.id = handle.id :=
  exists_of_prefix h hi

/-- A new handle comes behind those that were there. -/
theorem push (sh : Shell α) (handle : Handle) :
    NamesKept sh { sh with handles := sh.handles.push handle } := by
  simp only [NamesKept, Array.toList_push, List.map_append]
  exact List.prefix_append _ _

/-- A push keeps the names: it changes the message last pushed only. -/
theorem pushed (sh : Shell α) (i : HandleId) (handle : Handle) (m : MessageDefinition) :
    NamesKept sh (sh.pushed i handle m) := by
  have hsame : (sh.pushed i handle m).handles.toList.map Handle.id =
      sh.handles.toList.map Handle.id := map_handles_pushed sh i handle m fun _ => rfl
  show sh.handles.toList.map Handle.id <+: (sh.pushed i handle m).handles.toList.map Handle.id
  exact hsame ▸ List.prefix_refl _

theorem onward : Onward (NamesKept (α := α)) :=
  ⟨refl, trans, fun _ _ => of_handles rfl⟩

variable (hact : ∀ call (sh : Shell α), NamesKept sh (act call sh))
include hact

/-- Telling the listeners of a queue keeps the names when what they call does. -/
theorem queueChanged (q : QueueId) (sh : Shell α) : NamesKept sh (Shell.queueChanged act q sh) := by
  rw [queueChanged_eq]
  exact onward.callEach hact _ sh

/-- Adding a message keeps the names. -/
theorem addMessage (m : MessageDefinition) (sh : Shell α) :
    NamesKept sh (Shell.addMessage act q m sh).2 := by
  rcases e : sh.queues[q]? with - | qu
  · simp only [Shell.addMessage, e]
    exact refl sh
  · simp only [Shell.addMessage, e]
    exact queueChanged hact q (sh.modifyQueue q fun qu => (qu.pushFront m).2)

/-- Removing a message keeps the names: the handle stays when its message goes. -/
theorem removeMessage (id : String) (sh : Shell α) :
    NamesKept sh (Shell.removeMessage act q id sh).2 := by
  rw [Shell.removeMessage]
  split
  · exact queueChanged hact q (sh.modifyQueue q fun qu => qu.remove id)
  · exact refl sh

/-- Updating a message through its handle keeps the names. -/
theorem updateHandle (i : HandleId) (revision : Revision MessageDefinition) (sh : Shell α) :
    NamesKept sh (Shell.updateHandle act i revision.update sh) := by
  rcases e : sh.handles[i]? with - | handle
  · simp only [Shell.updateHandle, e]
    exact refl sh
  · rw [updateHandle_eq e]
    exact (pushed sh i handle _).trans (queueChanged hact _ _)

/-- A hook keeps the names when its script does. -/
theorem hooked (id : String) (m : MessageDefinition) (sh : Shell α) :
    NamesKept sh (Shell.hooked act id m sh).2 := by
  unfold Shell.hooked
  split
  · exact refl sh
  · next h _ =>
    rcases e : sh.hooks[h]? with - | hook
    · simp only [Shell.runHook, e]
      exact refl sh
    · simp only [Shell.runHook, e]
      refine trans ?_ (hact _ _)
      exact of_handles rfl

/-- A dismissal keeps the names, through the hook and the removal. -/
theorem dismissMessage (id : String) (sh : Shell α) :
    NamesKept sh (Shell.dismissMessage act q id sh).2 := by
  rcases e : sh.message? q id with - | m
  · unfold message? at e
    simp only [Shell.dismissMessage, e]
    exact refl sh
  · rw [dismissMessage_eq e]
    split
    · exact (hooked hact id m sh).trans (removeMessage hact id _)
    · exact hooked hact id m sh

end NamesKept

end Shell

open Shell (NamesKept)

/-- No step takes a handle away, or gives it another name. -/
theorem HandleStep.namesKept (s : HandleStep α)
    (hact : ∀ call (sh : Shell α), NamesKept sh (act call sh)) (sh : Shell α) :
    NamesKept sh (s.perform q act sh) := by
  cases s with
  | addOnce m => exact .addMessage hact m sh
  | add m => exact (NamesKept.addMessage hact m sh).trans (.push _ _)
  | notify failure lead => exact .addMessage hact _ sh
  | update h revision => exact .updateHandle hact h revision sh
  | notifyHandle h failure lead =>
    rw [HandleStep.perform, Shell.notifyHandle_eq]
    exact .updateHandle hact h _ sh
  | clear h =>
    rcases e : sh.handles[h]? with - | handle
    · simp only [HandleStep.perform, Shell.clearHandle, e]
      exact .refl sh
    · simp only [HandleStep.perform, Shell.clearHandle, e]
      exact .removeMessage hact handle.id sh
  | remove id => exact .removeMessage hact id sh
  | dismiss id => exact .dismissMessage hact id sh
  | aside a => exact .of_handles (a.handles sh)

/-- Every run of handle steps keeps the names of the handles that were there. -/
theorem HandleStep.namesKept_run (course : Course (HandleStep α) α) (sh : Shell α) :
    NamesKept sh (course.run (HandleStep.conduct α q) sh) :=
  NamesKept.onward.run (fun s _ hact sh => s.namesKept hact sh) course sh

/-! ### What a dismissal does -/

/-- A dismissal of a message that is listed: what it answers, what it takes out, what it leaves, and
where the message comes from that is listed when the hook is done.  Unless its own handle pushed
another one, the message that is taken out can be dismissed. -/
structure Shell.Dismisses (q : QueueId) (id : String) (m : MessageDefinition) (past : Journal)
    (act : Shell.Act α) (tr : Answers JournalMark α) (sh : Shell α) : Prop where
  answer : (dismissMessage act q id sh).1 =
    (m.dismissible && !(hooked act id m sh).1 && decide (id ∈ (hooked act id m sh).2.messageIds q))
  removed : (dismissMessage act q id sh).1 = true → ∃ front m' back,
    (hooked act id m sh).2.messages q = front ++ ⟨id, m'⟩ :: back ∧
    ((hooked act id m sh).2.modifyQueue q fun qu => qu.remove id).messages q = front ++ back ∧
    (dismissMessage act q id sh).2 =
      queueChanged act q ((hooked act id m sh).2.modifyQueue q fun qu => qu.remove id)
  kept : (dismissMessage act q id sh).1 = false →
    (dismissMessage act q id sh).2 = (hooked act id m sh).2
  pushed : ∀ m', (hooked act id m sh).2.message? q id = some m' → m' = m ∨
    ∃ (h : HandleId) (handle : Handle), sh.handles[h]? = some handle ∧ handle.id = id ∧
      past.lastPushed h = some m ∧ (hookedPast tr past id m sh).lastPushed h = some m'
  dismissible : (dismissMessage act q id sh).1 = true →
    (∀ (h : HandleId) (handle : Handle), sh.handles[h]? = some handle → handle.id = id →
      (hookedPast tr past id m sh).lastPushed h = past.lastPushed h) →
    ∀ m', (hooked act id m sh).2.message? q id = some m' → m'.dismissible = true

namespace Noted

variable {pending : List Notification} {past : Journal} {tr : Answers JournalMark α}

/-- A new queue lists nothing, and nobody owns anything. -/
theorem of_new {listeners : Listeners QueueListener}
    (hq : sh.queues[q]? = some ⟨[], 0, listeners⟩) (hh : sh.handles = #[]) :
    Noted q [] [] sh where
  queue := by
    refine ⟨_, hq, ?_⟩
    rw [Shell.owned, hh]
    exact .nil 0
  handle_queue := by simp [hh]
  lastPushed := by simp [hh, Journal.lastPushed, Journal.base]

/-- A listed message may be taken for a pending one, if no handle has its name. -/
theorem pin (hn : Noted q pending past sh) (hm : sh.message? q id = some m)
    (hh : ∀ (h : HandleId) (handle : Handle), sh.handles[h]? = some handle → handle.id ≠ id) :
    ∃ pending', Noted q pending' past sh ∧ ⟨id, m⟩ ∈ pending' := by
  obtain ⟨qu, hqu, hagrees⟩ := hn.queue
  have hmem : ⟨id, m⟩ ∈ qu.messages := by
    have hlisted := Shell.mem_messages_of_message? hm
    rwa [Shell.messages, hqu] at hlisted
  by_cases hid : id ∈ (pending ++ sh.owned).map Notification.id
  · -- whoever owns it is yet to get a handle
    obtain ⟨o, ho, hoid⟩ := List.mem_map.1 hid
    have hsame : ⟨id, m⟩ = o := hagrees.same _ hmem o ho hoid.symm
    subst hsame
    refine ⟨pending, hn, (List.mem_append.1 ho).resolve_right fun howned => ?_⟩
    obtain ⟨handle, hhandle, he⟩ := List.mem_map.1 howned
    obtain ⟨h, hget⟩ := Array.mem_iff_getElem?.1 (Array.mem_toList_iff.1 hhandle)
    exact hh h handle hget (congrArg Notification.id he)
  · -- nobody owns it
    refine ⟨⟨id, m⟩ :: pending, ⟨⟨qu, hqu, ?_⟩, hn.handle_queue, hn.lastPushed⟩,
      List.mem_cons_self⟩
    refine ⟨hagrees.listed_nodup, hagrees.listed_issued,
      List.nodup_cons.2 ⟨hid, hagrees.owned_nodup⟩, fun o ho => ?_, fun n hn o ho he => ?_⟩
    · rcases List.mem_cons.1 ho with rfl | ho
      · exact hagrees.listed_issued _ hmem
      · exact hagrees.owned_issued o ho
    · rcases List.mem_cons.1 ho with rfl | ho
      · exact List.inj_on_of_nodup_map hagrees.listed_nodup hn hmem he
      · exact hagrees.same n hn o ho he

/-- What is listed under the name of a pending message is that message. -/
theorem eq_of_pending (hn : Noted q pending past sh) (hmem : ⟨id, m⟩ ∈ pending)
    {m' : MessageDefinition} (hm' : sh.message? q id = some m') : m' = m := by
  obtain ⟨qu, hqu, hagrees⟩ := hn.queue
  have hlisted := Shell.mem_messages_of_message? hm'
  rw [Shell.messages, hqu] at hlisted
  exact congrArg Notification.message
    (hagrees.same _ hlisted _ (List.mem_append_left _ hmem) rfl)

/-- The journal still describes the queue when a hook is done. -/
theorem hooked (hact : Keeps (Noted q) act tr) (id : String) (m : MessageDefinition)
    (hn : Noted q pending past sh) :
    Noted q pending (sh.hookedPast tr past id m) (Shell.hooked act id m sh).2 := by
  unfold Shell.hookedPast Shell.hooked
  split
  · exact hn
  · exact (hn.yields_hook hact _ id).last

/-- What is listed under a name when a hook is done: the message that was listed before, or what
its handle pushed meanwhile. -/
theorem listed_hooked (hact : Keeps (Noted q) act tr)
    (hkept : ∀ call (sh : Shell α), NamesKept sh (act call sh)) (hn : Noted q pending past sh)
    (hm : sh.message? q id = some m) {m' : MessageDefinition}
    (hm' : (Shell.hooked act id m sh).2.message? q id = some m') : m' = m ∨
    ∃ (h : HandleId) (handle : Handle), sh.handles[h]? = some handle ∧ handle.id = id ∧
      past.lastPushed h = some m ∧ (sh.hookedPast tr past id m).lastPushed h = some m' := by
  by_cases hh : ∃ (h : HandleId) (handle : Handle), sh.handles[h]? = some handle ∧ handle.id = id
  · obtain ⟨h, handle, hget, rfl⟩ := hh
    -- the handle has its name when the hook is done, and what it pushed last is listed under it
    obtain ⟨handle', hget', hid⟩ := (NamesKept.hooked hkept handle.id m sh).exists_handle hget
    have hn' := hn.hooked hact handle.id m
    have hbefore : m = handle.lastPushed :=
      hn.messages hget _ (Shell.mem_messages_of_message? hm) rfl
    have hafter : m' = handle'.lastPushed :=
      hn'.messages hget' _ (Shell.mem_messages_of_message? hm') hid.symm
    refine .inr ⟨h, handle, hget, rfl, ?_, ?_⟩
    · rw [hn.lastPushed, hget, hbefore]
      rfl
    · rw [hn'.lastPushed, hget', hafter]
      rfl
  · -- a message without a handle is pinned while the hook runs
    obtain ⟨pending', hn', hmem⟩ := hn.pin hm fun h handle hget hid => hh ⟨h, handle, hget, hid⟩
    exact .inl ((hn'.hooked hact id m).eq_of_pending hmem hm')

/-- Names are listed once, so that a removal takes one message out. -/
theorem exists_remove (hn : Noted q pending past sh) (hid : id ∈ sh.messageIds q) :
    ∃ front m back, sh.messages q = front ++ ⟨id, m⟩ :: back ∧
      (sh.modifyQueue q fun qu => qu.remove id).messages q = front ++ back := by
  obtain ⟨n, hmem, rfl⟩ := List.mem_map.1 hid
  obtain ⟨front, back, hsplit⟩ := List.append_of_mem hmem
  refine ⟨front, n.message, back, hsplit, ?_⟩
  have hnodup : ((sh.messages q).map Notification.id).Nodup := by
    obtain ⟨qu, hqu, hagrees⟩ := hn.queue
    rw [Shell.messages, hqu]
    exact hagrees.listed_nodup
  rw [hsplit, List.map_append, List.map_cons, List.nodup_middle, List.nodup_cons,
    ← List.map_append] at hnodup
  -- no other message has the name
  have hother : ∀ n' ∈ front ++ back, (n'.id != n.id) = true := fun n' hn' =>
    bne_iff_ne.2 fun he => hnodup.1 (he ▸ List.mem_map_of_mem hn')
  rw [Shell.messages_remove, hsplit, List.filter_append, List.filter_cons,
    if_neg (by simp), ← List.filter_append]
  exact List.filter_eq_self.2 hother

/-- Where the journal describes the queue, a dismissal does what the hook's answer, the message
looked up and the list after the hook say. -/
theorem dismisses (hact : Keeps (Noted q) act tr)
    (hkept : ∀ call (sh : Shell α), NamesKept sh (act call sh)) (hn : Noted q pending past sh)
    (hm : sh.message? q id = some m) : sh.Dismisses q id m past act tr := by
  have hn' := hn.hooked hact id m
  have hanswer := Shell.answer_dismissMessage hm act
  refine ⟨hanswer, fun ht => ?removed, Shell.dismissMessage_of_refused hm,
    fun m' hm' => hn.listed_hooked hact hkept hm hm', fun ht hsame m' hm' => ?dismissible⟩
  case removed =>
    rw [hanswer, Bool.and_eq_true, decide_eq_true_eq] at ht
    obtain ⟨front, m', back, hsplit, hremoved⟩ := hn'.exists_remove ht.2
    refine ⟨front, m', back, hsplit, hremoved, ?_⟩
    rw [Shell.dismissMessage_eq hm, if_pos ht.1, Shell.removeMessage, if_pos ht.2]
  case dismissible =>
    rw [hanswer, Bool.and_eq_true, Bool.and_eq_true] at ht
    rcases hn.listed_hooked hact hkept hm hm' with rfl | ⟨h, handle, hh, hid, hbefore, hafter⟩
    · exact ht.1.1
    · rw [hsame h handle hh hid, hbefore] at hafter
      exact Option.some.inj hafter ▸ ht.1.1

end Noted

/-- At every station of every run of a new queue, a listed message is dismissed if it can be
dismissed when the dismissal starts, its hook does not prevent it, and the hook leaves it listed.
Exactly its entry is taken out then, or else the shell stays as the hook left it; and what the hook
left under the name is the message itself or what its own handle pushed meanwhile. -/
theorem dismissed_at_station {start : Shell α} {listeners : Listeners QueueListener}
    (hq : start.queues[q]? = some ⟨[], 0, listeners⟩) (hh : start.handles = #[])
    (course : Course (HandleStep α) α) :
    ∀ st ∈ course.stations (HandleStep.conduct α q) [] start,
      ∀ id m, st.shell.message? q id = some m →
        ∀ answer : Call → Shell α → Course (HandleStep α) α,
          st.shell.Dismisses q id m st.past
            (fun call sh => (answer call sh).run (HandleStep.conduct α q) sh)
            (fun call past sh => (answer call sh).stations (HandleStep.conduct α q) past sh) := by
  intro st hst id m hm answer
  obtain ⟨pending, hn⟩ := (yields_journal course (.of_new hq hh)).all st hst
  refine hn.dismisses (fun call _ _ sh hn => ?_) (fun call sh => ?_) hm
  · exact yields_journal (answer call sh) hn
  · exact HandleStep.namesKept_run (answer call sh) sh

/-- A shell with one queue and one hook. -/
def askingStart : Shell Unit :=
  { Shell.empty with queues := #[.empty], hooks := #[⟨.null, 0, 0⟩] }

/-- A message that can be dismissed, whose hook is asked before. -/
def askingMessage : MessageDefinition :=
  ⟨.info, none, .text "unsaved", true, false, some 0⟩

/-- The message is added with a handle. -/
def asking : Course (HandleStep Unit) Unit :=
  .step (.add askingMessage) (fun _ _ => .done) fun _ => .done

/-- The shell in which the message is listed. -/
def askingShell : Shell Unit :=
  asking.run (HandleStep.conduct Unit 0) askingStart

/-- The hook makes the message permanent through its handle. -/
def makesPermanent : Call → Shell Unit → Course (HandleStep Unit) Unit := fun _ _ =>
  .step (.update 0 (.function fun m => { m with dismissible := false })) (fun _ _ => .done)
    fun _ => .done

/-- How the hook acts. -/
abbrev permanentAct : Shell.Act Unit :=
  fun call sh => (makesPermanent call sh).run (HandleStep.conduct Unit 0) sh

theorem dismissed_at_station_askingShell :
    askingStart.queues[0]? = some ⟨[], 0, .empty⟩ ∧ askingStart.handles = #[] ∧
      askingShell.message? 0 "n1" = some askingMessage ∧
      askingShell.Dismisses 0 "n1" askingMessage [.opened 0 askingMessage] permanentAct
        fun call past sh => (makesPermanent call sh).stations (HandleStep.conduct Unit 0) past sh := by
  have hlast : (asking.stations (HandleStep.conduct Unit 0) [] askingStart).head? =
      some ⟨[.opened 0 askingMessage], askingShell⟩ := rfl
  exact ⟨rfl, rfl, rfl, dismissed_at_station rfl rfl asking _ (List.mem_of_head? hlast) "n1" _ rfl
    makesPermanent⟩

/-- The message is removed, though it is listed as permanent when its hook is done. -/
theorem dismissed_permanent :
    ⟨[.opened 0 askingMessage], askingShell⟩ ∈
        asking.stations (HandleStep.conduct Unit 0) [] askingStart ∧
      (Shell.hooked permanentAct "n1" askingMessage askingShell).1 = false ∧
      (Shell.hooked permanentAct "n1" askingMessage askingShell).2.message? 0 "n1" =
        some { askingMessage with dismissible := false } ∧
      (Shell.dismissMessage permanentAct 0 "n1" askingShell).1 = true ∧
      (Shell.dismissMessage permanentAct 0 "n1" askingShell).2.messages 0 = [] :=
  ⟨List.mem_cons_self, rfl, rfl, rfl, rfl⟩

end AppShell
