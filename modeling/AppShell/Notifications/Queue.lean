/-
AppShell/Notifications/Queue.lean

The queue of messages, newest first.

Messages are addressed by names that the queue issues in sequence.  An update
of a listed name replaces its message in place; an update of a name that is no
longer listed puts it back at the front.
-/
import AppShell.Ids
import AppShell.Listeners
import AppShell.Notifications.Message

namespace AppShell

/-- Someone who is told the names, or the whole messages, after each change. -/
structure QueueListener where
  label : String
  full : Bool
  callback : Nat
deriving DecidableEq, Repr

/-- A queue of messages.  The count of the names issued has no bound here; a word of 64 bits would
come back to zero after `2 ^ 64` of them. -/
structure Queue where
  messages : List Notification
  issued : Nat
  listeners : Listeners QueueListener

namespace Queue

/-- The queue without messages. -/
def empty : Queue := ⟨[], 0, .empty⟩

instance : Inhabited Queue := ⟨empty⟩

/-- The names of the messages, newest first. -/
def ids (q : Queue) : List String :=
  q.messages.map Notification.id

/-- The message with the given name. -/
def find? (q : Queue) (id : String) : Option MessageDefinition :=
  (q.messages.find? fun n => n.id == id).map Notification.message

/-- Puts a message under a new name at the front, and gives the name. -/
def pushFront (q : Queue) (message : MessageDefinition) : String × Queue :=
  let id := Ids.sequential (q.issued + 1)
  (id, { q with issued := q.issued + 1, messages := ⟨id, message⟩ :: q.messages })

/-- The messages with the first one of the given name replaced. -/
def replaceFirst (id : String) (message : MessageDefinition) : List Notification → List Notification
  | [] => []
  | n :: ns => if n.id = id then ⟨id, message⟩ :: ns else n :: replaceFirst id message ns

/-- Replaces the message with the given name in place, or puts it at the front. -/
def upsert (q : Queue) (id : String) (message : MessageDefinition) : Queue :=
  { q with messages :=
      if id ∈ q.ids then replaceFirst id message q.messages else ⟨id, message⟩ :: q.messages }

/-- Takes the message with the given name away. -/
def remove (q : Queue) (id : String) : Queue :=
  { q with messages := q.messages.filter fun n => n.id != id }

theorem ids_replaceFirst (id : String) (message : MessageDefinition) (ns : List Notification) :
    (replaceFirst id message ns).map Notification.id = ns.map Notification.id := by
  induction ns with
  | nil => rfl
  | cons n ns ih =>
    unfold replaceFirst
    split
    · rename_i h
      simp [h]
    · simp [ih]

theorem ids_upsert (q : Queue) (id : String) (message : MessageDefinition) :
    (q.upsert id message).ids = if id ∈ q.ids then q.ids else id :: q.ids := by
  unfold upsert
  split
  · exact ids_replaceFirst id message q.messages
  · rfl

theorem ids_remove (q : Queue) (id : String) : (q.remove id).ids = q.ids.filter (· != id) := by
  simp only [ids, remove, List.filter_map]
  rfl

end Queue

end AppShell
