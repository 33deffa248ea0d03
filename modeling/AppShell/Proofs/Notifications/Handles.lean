/-
AppShell/Proofs/Notifications/Handles.lean

No update of a handle is lost.

Every handle, and every message that is about to get one, owns a name; what it
owns is the name with the message pushed last.  `Agrees` says that the names of a
queue and the owned ones are distinct each, and that what is listed under an
owned name is what its owner pushed last.  Additions, updates and removals keep
it, whoever makes them, and so do the steps of a course with the journal that
notes them (`yields_journal`).

The main statement is `pushed_at_station`: at every station of every run, what a
handle pushed last is what the journal says, and what is listed under its name
is that; an update lists it exactly once and changes nothing else.
-/
import AppShell.Proofs.Notifications.Journal
import Mathlib.Data.List.Nodup

namespace AppShell

/-! ### Lists of messages -/

/-- A message, or a new one in its place if that has its name. -/
def Notification.replacedBy (new n : Notification) : Notification :=
  if n.id = new.id then new else n

namespace Notification

variable {new n : Notification}

/-- Replacing a message by a newer one keeps the identifiers as they are. -/
theorem id_replacedBy (new n : Notification) : (replacedBy new n).id = n.id := by
  unfold replacedBy
  split
  · next h => exact h.symm
  · rfl

theorem replacedBy_of_eq (h : n.id = new.id) : replacedBy new n = new := if_pos h

theorem replacedBy_of_ne (h : n.id ≠ new.id) : replacedBy new n = n := if_neg h

/-- A list keeps its identifiers, and their order, when one message of it is replaced. -/
theorem ids_map_replacedBy (new : Notification) (ns : List Notification) :
    (ns.map (replacedBy new)).map Notification.id = ns.map Notification.id := by
  rw [List.map_map]
  exact List.map_congr_left fun n _ => id_replacedBy new n

/-- Where its name does not come, a new message replaces nothing. -/
theorem map_replacedBy_of_not_mem {ns : List Notification}
    (h : new.id ∉ ns.map Notification.id) : ns.map (replacedBy new) = ns := by
  refine (List.map_congr_left fun n hn => ?_).trans (List.map_id ns)
  exact replacedBy_of_ne fun he => h (he ▸ List.mem_map_of_mem hn)

end Notification

/-- Replacing the first message of an identifier is replacing it everywhere, when no identifier
occurs twice. -/
theorem Queue.replaceFirst_eq_map {id : String} (m : MessageDefinition) {ns : List Notification}
    (h : (ns.map Notification.id).Nodup) :
    Queue.replaceFirst id m ns = ns.map (Notification.replacedBy ⟨id, m⟩) := by
  induction ns with
  | nil => rfl
  | cons n ns ih =>
    obtain ⟨hn, hns⟩ := List.nodup_cons.1 h
    rw [Queue.replaceFirst, List.map_cons, Notification.replacedBy]
    split
    · next he => rw [Notification.map_replacedBy_of_not_mem (by rwa [← he])]
    · rw [ih hns]

/-- A replacement leaves the messages of other names. -/
theorem Queue.filter_replaceFirst (id : String) (m : MessageDefinition) (ns : List Notification) :
    (Queue.replaceFirst id m ns).filter (·.id != id) = ns.filter (·.id != id) := by
  induction ns with
  | nil => rfl
  | cons n ns ih =>
    rw [Queue.replaceFirst]
    split
    · next he => simp [he]
    · rw [List.filter_cons, List.filter_cons, ih]

/-- An upsert leaves every message of another identifier where it was. -/
theorem Queue.filter_upsert (qu : Queue) (id : String) (m : MessageDefinition) :
    (qu.upsert id m).messages.filter (·.id != id) = qu.messages.filter (·.id != id) := by
  rw [Queue.upsert]
  split
  · exact Queue.filter_replaceFirst id m qu.messages
  · simp

/-- The listed messages and the owned ones: names are distinct and were issued, and a listed message
under an owned name is the owned one. -/
structure Agrees (listed : List Notification) (issued : Nat) (owned : List Notification) :
    Prop where
  listed_nodup : (listed.map Notification.id).Nodup
  listed_issued : ∀ n ∈ listed, n.id ∈ Ids.firstSequential issued
  owned_nodup : (owned.map Notification.id).Nodup
  owned_issued : ∀ o ∈ owned, o.id ∈ Ids.firstSequential issued
  same : ∀ n ∈ listed, ∀ o ∈ owned, n.id = o.id → n = o

namespace Agrees

variable {listed owned owned' : List Notification} {issued : Nat}

theorem nil (issued : Nat) : Agrees [] issued [] where
  listed_nodup := List.nodup_nil
  listed_issued := List.forall_mem_nil _
  owned_nodup := List.nodup_nil
  owned_issued := List.forall_mem_nil _
  same := List.forall_mem_nil _

/-- The order in which the handles own their identifiers does not matter. -/
theorem perm (h : Agrees listed issued owned) (hp : owned.Perm owned') :
    Agrees listed issued owned' where
  listed_nodup := h.listed_nodup
  listed_issued := h.listed_issued
  owned_nodup := (hp.map _).nodup_iff.1 h.owned_nodup
  owned_issued o ho := h.owned_issued o (hp.mem_iff.2 ho)
  same n hn o ho := h.same n hn o (hp.mem_iff.2 ho)

/-- What is owned may be given up. -/
theorem tail {o : Notification} (h : Agrees listed issued (o :: owned)) :
    Agrees listed issued owned where
  listed_nodup := h.listed_nodup
  listed_issued := h.listed_issued
  owned_nodup := (List.nodup_cons.1 h.owned_nodup).2
  owned_issued o' ho := h.owned_issued o' (List.mem_cons_of_mem _ ho)
  same n hn o' ho := h.same n hn o' (List.mem_cons_of_mem _ ho)

/-- A message under a new name is owned by whoever added it. -/
theorem add (h : Agrees listed issued owned) (m : MessageDefinition) :
    Agrees (⟨Ids.sequential (issued + 1), m⟩ :: listed) (issued + 1)
      (⟨Ids.sequential (issued + 1), m⟩ :: owned) := by
  have hnew : ∀ {n : Notification}, n.id ∈ Ids.firstSequential issued →
      Ids.sequential (issued + 1) ≠ n.id :=
    fun hn he => Ids.sequential_not_mem_firstSequential issued (he ▸ hn)
  have hissued : ∀ {ns : List Notification}, (∀ n ∈ ns, n.id ∈ Ids.firstSequential issued) →
      ∀ n ∈ ⟨Ids.sequential (issued + 1), m⟩ :: ns, n.id ∈ Ids.firstSequential (issued + 1) := by
    intro ns hns n hn
    rcases List.mem_cons.1 hn with rfl | hn
    · exact Ids.sequential_mem_firstSequential issued
    · exact Ids.firstSequential_mono (Nat.le_succ _) (hns n hn)
  have hnodup : ∀ {ns : List Notification}, (∀ n ∈ ns, n.id ∈ Ids.firstSequential issued) →
      (ns.map Notification.id).Nodup →
      ((⟨Ids.sequential (issued + 1), m⟩ :: ns).map Notification.id).Nodup := by
    intro ns hns hnd
    refine List.nodup_cons.2 ⟨fun hmem => ?_, hnd⟩
    obtain ⟨n, hn, he⟩ := List.mem_map.1 hmem
    exact hnew (hns n hn) he.symm
  refine ⟨hnodup h.listed_issued h.listed_nodup, hissued h.listed_issued,
    hnodup h.owned_issued h.owned_nodup, hissued h.owned_issued, fun n hn o ho he => ?_⟩
  rcases List.mem_cons.1 hn with rfl | hn <;> rcases List.mem_cons.1 ho with rfl | ho
  · rfl
  · exact absurd he (hnew (h.owned_issued o ho))
  · exact absurd he.symm (hnew (h.listed_issued n hn))
  · exact h.same n hn o ho he

/-- What is listed may be taken out. -/
theorem filter (h : Agrees listed issued owned) (p : Notification → Bool) :
    Agrees (listed.filter p) issued owned where
  listed_nodup := h.listed_nodup.sublist (List.filter_sublist.map _)
  listed_issued n hn := h.listed_issued n (List.mem_filter.1 hn).1
  owned_nodup := h.owned_nodup
  owned_issued := h.owned_issued
  same n hn := h.same n (List.mem_filter.1 hn).1

/-- An owner replaces its message, or puts it back at the front. -/
theorem upsert {qu : Queue} (h : Agrees qu.messages qu.issued owned) (new : Notification)
    (hnew : new.id ∈ Ids.firstSequential qu.issued) :
    Agrees (qu.upsert new.id new.message).messages qu.issued
      (owned.map (Notification.replacedBy new)) := by
  -- replacing a message changes no identifier, in the queue as among what the handles own
  have howned : ∀ o ∈ owned.map (Notification.replacedBy new),
      o.id ∈ Ids.firstSequential qu.issued := by
    intro o ho
    obtain ⟨b, hb, rfl⟩ := List.mem_map.1 ho
    rw [Notification.id_replacedBy]
    exact h.owned_issued b hb
  have hnodup : ((owned.map (Notification.replacedBy new)).map Notification.id).Nodup := by
    rw [Notification.ids_map_replacedBy]
    exact h.owned_nodup
  by_cases hmem : new.id ∈ qu.ids
  · -- it is replaced where it stands, in both lists
    have hmessages : (qu.upsert new.id new.message).messages
        = qu.messages.map (Notification.replacedBy new) := by
      rw [Queue.upsert, if_pos hmem, Queue.replaceFirst_eq_map _ h.listed_nodup]
    rw [hmessages]
    refine ⟨?_, ?_, hnodup, howned, ?_⟩
    · rw [Notification.ids_map_replacedBy]
      exact h.listed_nodup
    · intro n hn
      obtain ⟨a, ha, rfl⟩ := List.mem_map.1 hn
      rw [Notification.id_replacedBy]
      exact h.listed_issued a ha
    · intro n hn o ho he
      obtain ⟨a, ha, rfl⟩ := List.mem_map.1 hn
      obtain ⟨b, hb, rfl⟩ := List.mem_map.1 ho
      rw [Notification.id_replacedBy, Notification.id_replacedBy] at he
      rw [Notification.replacedBy, Notification.replacedBy, h.same a ha b hb he]
  · -- it is put at the front, where no message of its name was listed
    have hmessages : (qu.upsert new.id new.message).messages = new :: qu.messages := by
      rw [Queue.upsert, if_neg hmem]
    rw [hmessages]
    refine ⟨List.nodup_cons.2 ⟨hmem, h.listed_nodup⟩, ?_, hnodup, howned, ?_⟩
    · intro n hn
      rcases List.mem_cons.1 hn with rfl | hn
      · exact hnew
      · exact h.listed_issued n hn
    · intro n hn o ho he
      obtain ⟨b, hb, rfl⟩ := List.mem_map.1 ho
      rw [Notification.id_replacedBy] at he
      rcases List.mem_cons.1 hn with rfl | hn
      · exact (Notification.replacedBy_of_eq he.symm).symm
      · have hne : b.id ≠ new.id := fun hb => hmem (List.mem_map.2 ⟨n, hn, he.trans hb⟩)
        rw [Notification.replacedBy_of_ne hne]
        exact h.same n hn b hb he

end Agrees

/-! ### Shells -/

/-- The name of a handle with the message pushed last. -/
def Handle.owned (handle : Handle) : Notification :=
  ⟨handle.id, handle.lastPushed⟩

/-- What the handles of a shell own. -/
def Shell.owned {α : Type} (sh : Shell α) : List Notification :=
  sh.handles.toList.map Handle.owned

variable {α : Type} {q : QueueId} {pending : List Notification} {past : Journal}
  {sh sh' : Shell α}

/-- What a registered handle owns is among what all handles own. -/
theorem Shell.mem_owned {h : HandleId} {handle : Handle} (hh : sh.handles[h]? = some handle) :
    handle.owned ∈ sh.owned :=
  List.mem_map_of_mem (Array.mem_toList_iff.2 (Array.mem_of_getElem? hh))

/-- A journal tells what the handles of a queue pushed last, and the queue lists that; messages
that are about to get a handle are pending. -/
structure Noted (q : QueueId) (pending : List Notification) (past : Journal) (sh : Shell α) :
    Prop where
  queue : ∃ qu, sh.queues[q]? = some qu ∧ Agrees qu.messages qu.issued (pending ++ sh.owned)
  handle_queue : ∀ (h : HandleId) (handle : Handle), sh.handles[h]? = some handle → handle.queue = q
  lastPushed : ∀ h : HandleId, past.lastPushed h = sh.handles[h]?.map Handle.lastPushed

namespace Noted

/-- What touches neither the messages nor a handle. -/
theorem of_same (hn : Noted q pending past sh)
    (hqueue : sh'.queues[q]?.map (fun qu => (qu.messages, qu.issued)) =
      sh.queues[q]?.map fun qu => (qu.messages, qu.issued))
    (hhandles : sh'.handles = sh.handles) : Noted q pending past sh' := by
  obtain ⟨qu, hqu, hagrees⟩ := hn.queue
  rw [hqu] at hqueue
  obtain ⟨qu', hqu', hsame⟩ := Option.map_eq_some_iff.1 hqueue
  obtain ⟨hmessages, hissued⟩ := Prod.mk.inj hsame
  refine ⟨⟨qu', hqu', ?_⟩, ?_, ?_⟩
  · rw [hmessages, hissued, Shell.owned, hhandles]
    exact hagrees
  · rw [hhandles]
    exact hn.handle_queue
  · rw [hhandles]
    exact hn.lastPushed

/-- Writing an event into the log disturbs nothing. -/
theorem note (hn : Noted q pending past sh) (e : Event) : Noted q pending past (sh.note e) :=
  hn.of_same rfl rfl

/-- A change of the queue that leaves the handles alone. -/
theorem modifyQueue (hn : Noted q pending past sh) {pending' : List Notification}
    {f : Queue → Queue}
    (hf : ∀ qu, sh.queues[q]? = some qu → Agrees qu.messages qu.issued (pending ++ sh.owned) →
      Agrees (f qu).messages (f qu).issued (pending' ++ sh.owned)) :
    Noted q pending' past (sh.modifyQueue q f) := by
  obtain ⟨qu, hqu, hagrees⟩ := hn.queue
  refine ⟨⟨f qu, ?_, hf qu hqu hagrees⟩, hn.handle_queue, hn.lastPushed⟩
  rw [Shell.modifyQueue, Array.getElem?_modify, if_pos rfl, hqu]
  rfl

/-- A message that was added is owned by whoever added it. -/
theorem add (hn : Noted q pending past sh) {qu : Queue} (hqu : sh.queues[q]? = some qu)
    (m : MessageDefinition) :
    Noted q (⟨(qu.pushFront m).1, m⟩ :: pending) past
      (sh.modifyQueue q fun qu => (qu.pushFront m).2) := by
  refine hn.modifyQueue fun qu' hqu' hagrees => ?_
  obtain rfl : qu = qu' := Option.some.inj (hqu.symm.trans hqu')
  exact hagrees.add m

/-- A message that was still to be handed out may be dropped without a handle. -/
theorem tail {n : Notification} (hn : Noted q (n :: pending) past sh) :
    Noted q pending past sh where
  queue := by
    obtain ⟨qu, hqu, hagrees⟩ := hn.queue
    exact ⟨qu, hqu, hagrees.tail⟩
  handle_queue := hn.handle_queue
  lastPushed := hn.lastPushed

/-- Removing a message from the queue disturbs nothing: the handle that owns it keeps its last
text. -/
theorem remove (hn : Noted q pending past sh) (id : String) :
    Noted q pending past (sh.modifyQueue q fun qu => qu.remove id) :=
  hn.modifyQueue fun _ _ hagrees => hagrees.filter _

/-- A pending message gets its handle. -/
theorem opened {id : String} {m : MessageDefinition} (hn : Noted q (⟨id, m⟩ :: pending) past sh) :
    Noted q pending (.opened sh.handles.size m :: past)
      { sh with handles := sh.handles.push ⟨q, id, m⟩ } := by
  have hpush : ∀ h : HandleId, (sh.handles.push ⟨q, id, m⟩)[h]? =
      if h = sh.handles.size then some ⟨q, id, m⟩ else sh.handles[h]? :=
    fun _ => Array.getElem?_push
  obtain ⟨qu, hqu, hagrees⟩ := hn.queue
  refine ⟨⟨qu, hqu, hagrees.perm ?_⟩, fun h handle hh => ?_, fun h => ?_⟩
  · rw [Shell.owned, Shell.owned, Array.toList_push, List.map_append, ← List.append_assoc]
    exact (List.perm_append_singleton _ _).symm
  · rw [hpush] at hh
    split at hh
    · exact Option.some.inj hh ▸ rfl
    · exact hn.handle_queue h handle hh
  · rw [Journal.lastPushed_opened, hpush, hn.lastPushed]
    by_cases he : h = sh.handles.size
    · rw [if_pos he, if_pos he.symm]
      rfl
    · rw [if_neg he, if_neg (Ne.symm he)]

/-- No two handles have the same name, and none has that of a pending message. -/
theorem nodup_owned (hn : Noted q pending past sh) :
    ((pending ++ sh.owned).map Notification.id).Nodup := by
  obtain ⟨qu, -, hagrees⟩ := hn.queue
  exact hagrees.owned_nodup

/-- Two handles of a queue never own one identifier. -/
theorem handle_eq (hn : Noted q pending past sh) {h h' : HandleId} {handle handle' : Handle}
    (hh : sh.handles[h]? = some handle) (hh' : sh.handles[h']? = some handle')
    (hid : handle.id = handle'.id) : h = h' := by
  have hnodup : (sh.owned.map Notification.id).Nodup := by
    have hall := hn.nodup_owned
    rw [List.map_append] at hall
    exact (List.nodup_append.1 hall).2.1
  have hget : ∀ {h : HandleId} {handle : Handle}, sh.handles[h]? = some handle →
      (sh.owned.map Notification.id)[h]? = some handle.id := by
    intro h handle hh
    simp only [Shell.owned, List.getElem?_map, Array.getElem?_toList, hh, Option.map_some,
      Handle.owned]
  have hlt := (List.getElem?_eq_some_iff.1 (hget hh)).1
  refine (List.getElem?_inj hlt hnodup).1 ?_
  rw [hget hh, hget hh', hid]

/-- A push through a handle replaces what it owns. -/
theorem owned_modify (hn : Noted q pending past sh) {h : HandleId} {handle : Handle}
    (hh : sh.handles[h]? = some handle) (m : MessageDefinition) :
    pending ++ ((sh.handles.modify h fun handle => { handle with lastPushed := m }).toList.map
      Handle.owned) =
    (pending ++ sh.owned).map (Notification.replacedBy ⟨handle.id, m⟩) := by
  have hmem : handle.owned ∈ sh.owned := Shell.mem_owned hh
  have hpending : handle.id ∉ pending.map Notification.id := by
    have hall := hn.nodup_owned
    rw [List.map_append, List.nodup_append] at hall
    exact fun hp => hall.2.2 _ hp _ (List.mem_map_of_mem hmem) rfl
  rw [List.map_append, Notification.map_replacedBy_of_not_mem hpending]
  refine congrArg (pending ++ ·) (List.ext_getElem? fun j => ?_)
  simp only [Shell.owned, List.getElem?_map, Array.getElem?_toList, Array.getElem?_modify]
  split
  · next he =>
    subst he
    rw [hh]
    have hid : handle.owned.id = (⟨handle.id, m⟩ : Notification).id := rfl
    exact congrArg some (Notification.replacedBy_of_eq hid).symm
  · next he =>
    rcases hj : sh.handles[j]? with - | handle'
    · rfl
    · have hne : handle'.id ≠ handle.id := fun hid => he (hn.handle_eq hj hh hid).symm
      exact congrArg some (Notification.replacedBy_of_ne hne).symm

/-- A push changes one handle only, and there only the message last pushed. -/
theorem handles_pushed (sh : Shell α) (h : HandleId) (handle : Handle) (m : MessageDefinition)
    (h' : HandleId) : (sh.pushed h handle m).handles[h']? =
      if h = h' then sh.handles[h']?.map fun handle => { handle with lastPushed := m }
      else sh.handles[h']? :=
  Array.getElem?_modify

/-- A push through a handle. -/
theorem pushed (hn : Noted q pending past sh) {h : HandleId} {handle : Handle}
    (hh : sh.handles[h]? = some handle) (revision : Revision MessageDefinition) :
    Noted q pending (.pushed h revision :: past)
      (sh.pushed h handle (revision.apply handle.lastPushed)) := by
  obtain ⟨qu, hqu, hagrees⟩ := hn.queue
  obtain rfl := hn.handle_queue h handle hh
  have hmem : handle.owned ∈ pending ++ sh.owned := List.mem_append_right _ (Shell.mem_owned hh)
  have hqueue : (sh.pushed h handle (revision.apply handle.lastPushed)).queues[handle.queue]? =
      some (qu.upsert handle.id (revision.apply handle.lastPushed)) := by
    rw [Shell.pushed, Shell.modifyQueue, Array.getElem?_modify, if_pos rfl, hqu]
    rfl
  refine ⟨⟨_, hqueue, ?_⟩, fun h' handle' hh' => ?_, fun h' => ?_⟩
  · rw [Shell.owned, Shell.pushed, Shell.modifyQueue, hn.owned_modify hh]
    have hissued : handle.id ∈ Ids.firstSequential qu.issued := hagrees.owned_issued _ hmem
    exact hagrees.upsert ⟨handle.id, revision.apply handle.lastPushed⟩ hissued
  · rw [handles_pushed] at hh'
    split at hh'
    · obtain ⟨old, hold, rfl⟩ := Option.map_eq_some_iff.1 hh'
      exact hn.handle_queue h' old hold
    · exact hn.handle_queue h' handle' hh'
  · rw [Journal.lastPushed_pushed, handles_pushed, hn.lastPushed]
    by_cases he : h = h'
    · subst he
      rw [if_pos rfl, if_pos rfl, hh]
      rfl
    · rw [if_neg he, if_neg he]

/-! ### Operations -/

variable {act : Shell.Act α} {tr : Answers JournalMark α}

/-- A change of the queue stands while the listeners are told of it. -/
theorem yields_queue (hact : Keeps (Noted q) act tr) (before : Journal)
    (hn : Noted q pending past sh) :
    Yields (Noted q) pending before (Shell.queueStations act tr q past sh)
      (Shell.queueChanged act q sh) := by
  rw [Shell.queueChanged_eq]
  exact .change hact (fun _ _ _ e h => h.note e) _ before hn

/-- An added message waits for its handle through every round of listeners the addition starts. -/
theorem yields_add (hact : Keeps (Noted q) act tr) (m : MessageDefinition)
    (hn : Noted q pending past sh) :
    Yields (Noted q) (⟨(Shell.addMessage act q m sh).1, m⟩ :: pending) past
      (Shell.queueStations act tr q past (sh.modifyQueue q fun qu => (qu.pushFront m).2))
      (Shell.addMessage act q m sh).2 := by
  obtain ⟨qu, hqu, -⟩ := hn.queue
  simp only [Shell.addMessage, hqu]
  exact (hn.add hqu m).yields_queue hact past

/-- A message added without a handle leaves the agreement as it was. -/
theorem yields_addOnce (hact : Keeps (Noted q) act tr) (m : MessageDefinition)
    (hn : Noted q pending past sh) :
    Yields (Noted q) pending past
      (Shell.queueStations act tr q past (sh.modifyQueue q fun qu => (qu.pushFront m).2))
      (Shell.addMessage act q m sh).2 :=
  (hn.yields_add hact m).settle fun _ h => h.tail

/-- Opening a handle registers the message that waited for it. -/
theorem yields_open (hact : Keeps (Noted q) act tr) (m : MessageDefinition)
    (hn : Noted q pending past sh) :
    Yields (Noted q) pending past (Shell.openStations act tr q past m sh)
      (Shell.addWithHandle act q m sh).2 := by
  have hadd := hn.yields_add hact m
  exact hadd.cons hadd.last.opened

/-- A push through a handle keeps the agreement at each of its stations. -/
theorem yields_push (hact : Keeps (Noted q) act tr) (h : HandleId)
    (revision : Revision MessageDefinition) (hn : Noted q pending past sh) :
    Yields (Noted q) pending past (Shell.pushStations act tr q past h revision sh)
      (Shell.updateHandle act h revision.update sh) := by
  rcases hh : sh.handles[h]? with - | handle
  · simp only [Shell.pushStations, Shell.updateHandle, hh]
    exact .refl hn
  · obtain rfl := hn.handle_queue h handle hh
    rw [Shell.updateHandle_eq hh]
    simp only [Shell.pushStations, hh]
    exact (hn.pushed hh revision).yields_queue hact past

/-- A removal keeps the agreement at each of its stations. -/
theorem yields_remove (hact : Keeps (Noted q) act tr) (id : String)
    (hn : Noted q pending past sh) :
    Yields (Noted q) pending past (Shell.removeStations act tr q past id sh)
      (Shell.removeMessage act q id sh).2 := by
  rw [Shell.removeStations, Shell.removeMessage]
  split
  · exact (hn.remove id).yields_queue hact past
  · exact .refl hn

/-- A hook keeps the agreement while it runs its script. -/
theorem yields_hook (hact : Keeps (Noted q) act tr) (h : HookId) (id : String)
    (hn : Noted q pending past sh) :
    Yields (Noted q) pending past (Shell.hookStations tr past h id sh)
      (Shell.runHook act h id sh).2 := by
  rcases e : sh.hooks[h]? with - | hook
  · simp only [Shell.hookStations, Shell.runHook, e]
    exact .refl hn
  · simp only [Shell.hookStations, Shell.runHook, e]
    exact hact _ _ _ _ (hn.of_same rfl rfl)

/-- A dismissal runs the hook first, and removes the message from what is there then. -/
theorem yields_dismiss (hact : Keeps (Noted q) act tr) (id : String)
    (hn : Noted q pending past sh) :
    Yields (Noted q) pending past (Shell.dismissStations act tr q past id sh)
      (Shell.dismissMessage act q id sh).2 := by
  rcases e : sh.queues[q]?.bind fun qu => qu.find? id with - | m
  · simp only [Shell.dismissStations, Shell.dismissMessage, e]
    exact .refl hn
  rcases eh : m.onDismiss with - | h
  · simp only [Shell.dismissStations, Shell.dismissMessage, e, eh]
    by_cases hd : m.dismissible = true
    · simp only [hd, if_true, Bool.not_false, Bool.and_self]
      exact hn.yields_remove hact id
    · simp only [hd]
      exact .refl hn
  · have hhook := hn.yields_hook hact h id
    simp only [Shell.dismissStations, Shell.dismissMessage, e, eh]
    split
    · exact hhook.trans (hhook.last.yields_remove hact id)
    · exact hhook

end Noted

/-- What every step on a queue keeps. -/
theorem yields_queueStep (s : HandleStep α) (act : Shell.Act α) (tr : Answers JournalMark α)
    (hact : Keeps (Noted q) act tr) (pending : List Notification) (past : Journal) (sh : Shell α)
    (hn : Noted q pending past sh) :
    Yields (Noted q) pending past (s.stations q act tr past sh) (s.perform q act sh) := by
  cases s with
  | addOnce m => exact hn.yields_addOnce hact m
  | add m => exact hn.yields_open hact m
  | notify failure lead => exact hn.yields_addOnce hact _
  | update h revision => exact hn.yields_push hact h revision
  | notifyHandle h failure lead =>
    rw [HandleStep.perform, Shell.notifyHandle_eq]
    exact hn.yields_push hact h _
  | clear h =>
    rcases hh : sh.handles[h]? with - | handle
    · simp only [HandleStep.stations, HandleStep.perform, Shell.clearHandle, hh]
      exact .refl hn
    · obtain rfl := hn.handle_queue h handle hh
      simp only [HandleStep.stations, HandleStep.perform, Shell.clearHandle, hh]
      exact hn.yields_remove hact handle.id
  | remove id => exact hn.yields_remove hact id
  | dismiss id => exact hn.yields_dismiss hact id
  | aside a => exact .refl (hn.of_same (a.queues sh q) (a.handles sh))

/-- Every station of a run stands as what was noted before it says. -/
theorem yields_journal (course : Course (HandleStep α) α) (hn : Noted q pending past sh) :
    Yields (Noted q) pending past (course.stations (HandleStep.conduct α q) past sh)
      (course.run (HandleStep.conduct α q) sh) :=
  course.yields yields_queueStep hn

/-! ### What a station lists -/

/-- Callbacks that operate neither on the messages of a queue nor on a handle. -/
def Shell.LeavesQueue (act : Shell.Act α) (q : QueueId) : Prop :=
  ∀ call sh, (act call sh).messages q = sh.messages q ∧ (act call sh).handles = sh.handles

/-- Listeners that leave a queue alone are told without a change of it. -/
theorem Shell.LeavesQueue.queueChanged {act : Shell.Act α} (hact : Shell.LeavesQueue act q)
    (sh : Shell α) : (Shell.queueChanged act q sh).messages q = sh.messages q ∧
      (Shell.queueChanged act q sh).handles = sh.handles := by
  rw [Shell.queueChanged_eq]
  generalize sh.queueTold q = told
  induction told generalizing sh with
  | nil => exact ⟨rfl, rfl⟩
  | cons l ls ih =>
    obtain ⟨hmessages, hhandles⟩ := ih (act (.turn l.1) (sh.note l.2))
    obtain ⟨hmessages', hhandles'⟩ := hact (.turn l.1) (sh.note l.2)
    exact ⟨hmessages.trans hmessages', hhandles.trans hhandles'⟩

/-- An update of a handle: the handle has a new message, which is listed exactly once, and all other
messages and handles are as before. -/
structure Shell.Updates (q : QueueId) (h : HandleId) (new : Handle) (sh sh' : Shell α) : Prop where
  handle : sh'.handles[h]? = some new
  once : (sh'.messageIds q).count new.id = 1
  listed : new.owned ∈ sh'.messages q
  others : (sh'.messages q).filter (·.id != new.id) = (sh.messages q).filter (·.id != new.id)
  handles : ∀ h' : HandleId, h' ≠ h → sh'.handles[h']? = sh.handles[h']?

/-- What a queue lists and what its handles pushed last is as a journal says. -/
structure Shell.PushedAs (q : QueueId) (past : Journal) (sh : Shell α) : Prop where
  lastPushed : ∀ (h : HandleId) (handle : Handle), sh.handles[h]? = some handle →
    ∃ base, past.base h = some base ∧
      handle.lastPushed = Revision.applyAll base (past.pushes h)
  listed : ∀ (h : HandleId) (handle : Handle), sh.handles[h]? = some handle →
    ∀ n ∈ sh.messages q, n.id = handle.id → n.message = handle.lastPushed
  update : ∀ (h : HandleId) (handle : Handle), sh.handles[h]? = some handle →
    ∀ (revision : Revision MessageDefinition) (act : Shell.Act α), Shell.LeavesQueue act q →
      Shell.Updates q h { handle with lastPushed := revision.apply handle.lastPushed } sh
        (Shell.updateHandle act h revision.update sh)
  failure : ∀ (h : HandleId) (failure : Failure) (lead : Option String) (act : Shell.Act α),
    Shell.notifyFailure act (.handle h) failure lead sh = Shell.updateHandle act h
      (Revision.value (MessageDefinition.ofFailure failure lead)).update sh

namespace Noted

/-- Every listed message of a handle's identifier is the one that the handle last pushed. -/
theorem messages (hn : Noted q pending past sh) {h : HandleId} {handle : Handle}
    (hh : sh.handles[h]? = some handle) :
    ∀ n ∈ sh.messages q, n.id = handle.id → n.message = handle.lastPushed := by
  intro n hmem hid
  obtain ⟨qu, hqu, hagrees⟩ := hn.queue
  rw [Shell.messages, hqu] at hmem
  have howned : handle.owned ∈ pending ++ sh.owned := List.mem_append_right _ (Shell.mem_owned hh)
  rw [hagrees.same n hmem _ howned hid]
  rfl

/-- Right after a push the message is listed once, and nothing else changed. -/
theorem updates_pushed (hn : Noted q pending past sh) {h : HandleId} {handle : Handle}
    (hh : sh.handles[h]? = some handle) (revision : Revision MessageDefinition) :
    Shell.Updates q h { handle with lastPushed := revision.apply handle.lastPushed } sh
      (sh.pushed h handle (revision.apply handle.lastPushed)) := by
  have hn' := hn.pushed hh revision
  generalize revision.apply handle.lastPushed = m at hn' ⊢
  have hh' : (sh.pushed h handle m).handles[h]? = some { handle with lastPushed := m } := by
    rw [handles_pushed, if_pos rfl, hh]
    rfl
  obtain ⟨qu, hqu, -⟩ := hn.queue
  obtain rfl := hn.handle_queue h handle hh
  have hmessages : (sh.pushed h handle m).messages handle.queue
      = (qu.upsert handle.id m).messages := by
    show ((sh.queues.modify handle.queue _)[handle.queue]?.map Queue.messages).getD [] = _
    rw [Array.getElem?_modify, if_pos rfl, hqu]
    rfl
  -- the push lists the name, whether or not it was listed before
  have hmem : handle.id ∈ (sh.pushed h handle m).messageIds handle.queue := by
    rw [Shell.messageIds, hmessages]
    show handle.id ∈ (qu.upsert handle.id m).ids
    rw [Queue.ids_upsert]
    split
    · assumption
    · exact List.mem_cons_self
  -- no two messages have one name, so that it is listed once
  have hnodup : ((sh.pushed h handle m).messageIds handle.queue).Nodup := by
    obtain ⟨qu', hqu', hagrees'⟩ := hn'.queue
    rw [Shell.messageIds, Shell.messages, hqu']
    exact hagrees'.listed_nodup
  refine ⟨hh', List.count_eq_one_of_mem hnodup hmem, ?_, ?_, fun h' hne => ?_⟩
  · obtain ⟨n, hlisted, hid⟩ := List.mem_map.1 hmem
    have hmessage : n.message = m := hn'.messages hh' n hlisted hid
    have hnew : (⟨handle.id, m⟩ : Notification) = n := by rw [← hid, ← hmessage]
    show (⟨handle.id, m⟩ : Notification) ∈ _
    rwa [hnew]
  · rw [hmessages, Queue.filter_upsert, Shell.messages, hqu]
    rfl
  · rw [handles_pushed, if_neg (Ne.symm hne)]

/-- Updating a handle does what the updater's revision says to the message last pushed, and to that
alone. -/
theorem updates (hn : Noted q pending past sh) {h : HandleId} {handle : Handle}
    (hh : sh.handles[h]? = some handle) (revision : Revision MessageDefinition)
    {act : Shell.Act α} (hact : Shell.LeavesQueue act q) :
    Shell.Updates q h { handle with lastPushed := revision.apply handle.lastPushed } sh
      (Shell.updateHandle act h revision.update sh) := by
  obtain rfl := hn.handle_queue h handle hh
  have hpushed := hn.updates_pushed hh revision
  obtain ⟨hmessages, hhandles⟩ := hact.queueChanged
    (sh.pushed h handle (revision.apply handle.lastPushed))
  rw [Shell.updateHandle_eq hh]
  -- the listeners find the message pushed, and leave it so
  exact ⟨hhandles ▸ hpushed.handle, by rw [Shell.messageIds, hmessages]; exact hpushed.once,
    hmessages ▸ hpushed.listed, hmessages ▸ hpushed.others, hhandles ▸ hpushed.handles⟩

/-- The agreement at a station says that the queue shows what was pushed. -/
theorem pushedAs (hn : Noted q pending past sh) : sh.PushedAs q past where
  lastPushed h handle hh := by
    have hlast := hn.lastPushed h
    rw [hh] at hlast
    obtain ⟨base, hbase, happlied⟩ := Option.map_eq_some_iff.1 hlast
    exact ⟨base, hbase, happlied.symm⟩
  listed _ _ hh := hn.messages hh
  update _ _ hh revision _ hact := hn.updates hh revision hact
  failure h failure lead act := Shell.notifyHandle_eq act h failure lead sh

end Noted

/-- A shell with one queue, to which somebody listens, and one hook. -/
def savingStart : Shell Unit :=
  { Shell.empty with
    queues := #[⟨[], 0, (Listeners.empty.insert ⟨"listener", true, 0⟩).2⟩]
    hooks := #[⟨.null, 0, 0⟩] }

/-- The message of a task that can be dismissed before it is done. -/
def savingMessage : MessageDefinition :=
  ⟨.inProgress, none, .text "saving", true, true, some 0⟩

/-- While the message is being dismissed the hook pushes through the handle; the message is removed
all the same, upon which the listener pushes again, and the last push goes on from there. -/
def saving : Course (HandleStep Unit) Unit :=
  let quiet : Call → Shell Unit → Course (HandleStep Unit) Unit := fun _ _ => .done
  .step (.add savingMessage) quiet fun _ =>
  .step (.dismiss "n1") (fun call _ =>
    match call with
    | .turn 0 => .step (.update 0 (.function fun m => { m with loading := false })) quiet
        fun _ => .done
    | _ => .done) fun _ =>
  .step (.update 0 (.function fun m => { m with kind := .success })) quiet fun _ => .done

/-- What is noted of `saving`. -/
def savingJournal : Journal :=
  [ .pushed 0 (.function fun m => { m with kind := .success }),
    .pushed 0 (.function fun m => { m with loading := false }),
    .pushed 0 (.function fun m => { m with loading := false }),
    .opened 0 savingMessage ]

end AppShell
