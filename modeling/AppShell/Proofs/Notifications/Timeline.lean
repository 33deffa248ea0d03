/-
AppShell/Proofs/Notifications/Timeline.lean

Timelines of a queue of messages.

A timeline lists what happened to a queue, the newest first: each change, and
each call of a callback, with the names that were listed right after it.  An
update records whether it found its name listed; one that did not is an
insertion, as an addition is.

A timeline is lawful if every moment follows from the past in the way in which a
queue changes (`Moment.Follows`).  In a lawful timeline the list has the shape
that the past gives it (`Timeline.Lawful.shaped`): its names are distinct and
were issued, a name is listed exactly if it was inserted after it was removed
last, and the names stand in the order of these insertions, the newest first.
-/
import AppShell.Proofs.Ids

namespace AppShell

/-- A change of a queue, or the call of a callback. -/
inductive QueueMark where
  | added (id : String)
  | updated (id : String) (found : Bool)
  | removed (id : String)
  | called
deriving DecidableEq, Repr

namespace QueueMark

/-- Whether a change puts a name into the list. -/
def inserts (id : String) : QueueMark → Bool
  | .added id' => id' == id
  | .updated id' found => id' == id && !found
  | _ => false

/-- Whether a change takes a name out of the list. -/
def removes (id : String) : QueueMark → Bool
  | .removed id' => id' == id
  | _ => false

end QueueMark

/-- A change with the names that are listed right after it. -/
structure Moment where
  mark : QueueMark
  listed : List String
deriving DecidableEq, Repr

/-- What happened to a queue, the newest first. -/
abbrev Timeline := List Moment

namespace Timeline

/-- The names that are listed at the end, none at the beginning. -/
def listed : Timeline → List String
  | [] => []
  | m :: _ => m.listed

/-- The number of names issued. -/
def issued : Timeline → Nat
  | [] => 0
  | ⟨.added _, _⟩ :: past => issued past + 1
  | _ :: past => issued past

/-- When a name was inserted last, counted from one; zero if never. -/
def insertedAt (id : String) : Timeline → Nat
  | [] => 0
  | m :: past => if m.mark.inserts id then past.length + 1 else insertedAt id past

/-- When a name was removed last, counted from one; zero if never. -/
def removedAt (id : String) : Timeline → Nat
  | [] => 0
  | m :: past => if m.mark.removes id then past.length + 1 else removedAt id past

end Timeline

/-- A moment follows from the past as a queue changes: an addition puts the next name first, an
update leaves a listed name where it is and puts any other one first, and a removal leaves the
order of the others. -/
def Moment.Follows (past : Timeline) (m : Moment) : Prop :=
  match m.mark with
  | .added id => id = Ids.sequential (past.issued + 1) ∧ m.listed = id :: past.listed
  | .updated id found => id ∈ Ids.firstSequential past.issued ∧
      found = decide (id ∈ past.listed) ∧
      m.listed = if id ∈ past.listed then past.listed else id :: past.listed
  | .removed id => id ∈ past.listed ∧ m.listed = past.listed.filter (· != id)
  | .called => m.listed = past.listed

namespace Timeline

/-- Every moment follows from what was before it. -/
def Lawful : Timeline → Prop
  | [] => True
  | m :: past => Lawful past ∧ m.Follows past

/-- The names at the end of a timeline are distinct, were issued, are those inserted after their
last removal, and stand in the order of these insertions, the newest first. -/
structure Shaped (t : Timeline) : Prop where
  nodup : t.listed.Nodup
  issued : ∀ id ∈ t.listed, id ∈ Ids.firstSequential t.issued
  listed_iff : ∀ id, id ∈ t.listed ↔ t.removedAt id < t.insertedAt id
  newest_first : t.listed.Pairwise fun a b => t.insertedAt b < t.insertedAt a

theorem insertedAt_le (t : Timeline) (id : String) : t.insertedAt id ≤ t.length := by
  induction t with
  | nil => exact Nat.le_refl 0
  | cons m past ih =>
    unfold insertedAt
    split
    · exact Nat.le_refl _
    · exact Nat.le_succ_of_le ih

theorem removedAt_le (t : Timeline) (id : String) : t.removedAt id ≤ t.length := by
  induction t with
  | nil => exact Nat.le_refl 0
  | cons m past ih =>
    unfold removedAt
    split
    · exact Nat.le_refl _
    · exact Nat.le_succ_of_le ih

theorem issued_append (new past : Timeline) : (new ++ past).issued = new.issued + past.issued := by
  induction new with
  | nil => exact (Nat.zero_add _).symm
  | cons m new ih =>
    obtain ⟨mark, listed⟩ := m
    cases mark with
    | added id =>
      show issued (new ++ past) + 1 = issued new + 1 + issued past
      omega
    | updated id found | removed id | called => exact ih

theorem Lawful.suffix {t past : Timeline} (h : t.Lawful) (hs : past <:+ t) : past.Lawful := by
  obtain ⟨new, rfl⟩ := hs
  induction new with
  | nil => exact h
  | cons m new ih => exact ih h.1

/-! ### The shape of the list -/

namespace Shaped

variable {past : Timeline}

/-- A name that is put in front keeps the shape, if it is not listed yet. -/
theorem insert (h : Shaped past) {m : Moment} {id : String} (hnew : id ∉ past.listed)
    (hlisted : m.listed = id :: past.listed) (hmark : ∀ a, m.mark.inserts a = decide (id = a))
    (hremoves : ∀ a, m.mark.removes a = false)
    (hissued : ∀ a ∈ m.listed, a ∈ Ids.firstSequential (Timeline.issued (m :: past))) :
    Shaped (m :: past) := by
  -- this moment is the epoch of the insertion; every other name keeps the one it had
  have hins : ∀ a, insertedAt a (m :: past) =
      if id = a then past.length + 1 else insertedAt a past := by
    intro a
    rw [insertedAt, hmark]
    simp
  have hrem : ∀ a, removedAt a (m :: past) = removedAt a past := by
    intro a
    rw [removedAt, hremoves]
    rfl
  have hother : ∀ a ∈ past.listed, id ≠ a := by
    rintro a ha rfl
    exact hnew ha
  refine ⟨?nodup, hissued, ?listed_iff, ?newest_first⟩
  case nodup =>
    show m.listed.Nodup
    rw [hlisted]
    exact List.nodup_cons.2 ⟨hnew, h.nodup⟩
  case listed_iff =>
    intro a
    show a ∈ m.listed ↔ _
    rw [hlisted, List.mem_cons, hins, hrem]
    by_cases ha : id = a
    · -- it is inserted now, later than any removal
      have := removedAt_le past a
      simp only [ha, if_true, true_or, true_iff]
      omega
    · rw [if_neg ha, ← h.listed_iff]
      simp [Ne.symm ha]
  case newest_first =>
    show m.listed.Pairwise _
    rw [hlisted, List.pairwise_cons]
    -- the epoch of the new name lies above all others, which keep their order
    refine ⟨fun a ha => ?_, h.newest_first.imp_of_mem fun {a b} ha hb hab => ?_⟩
    · have := insertedAt_le past a
      rw [hins, hins, if_pos rfl, if_neg (hother a ha)]
      omega
    · rwa [hins, hins, if_neg (hother a ha), if_neg (hother b hb)]

/-- A moment that leaves the list as it is keeps the shape. -/
theorem keep (h : Shaped past) {m : Moment} (hlisted : m.listed = past.listed)
    (hinserts : ∀ a, m.mark.inserts a = false) (hremoves : ∀ a, m.mark.removes a = false)
    (hissued : Timeline.issued (m :: past) = past.issued) : Shaped (m :: past) := by
  have hins : ∀ a, insertedAt a (m :: past) = insertedAt a past := by
    intro a
    rw [insertedAt, hinserts]
    rfl
  have hrem : ∀ a, removedAt a (m :: past) = removedAt a past := by
    intro a
    rw [removedAt, hremoves]
    rfl
  have hsame : listed (m :: past) = past.listed := hlisted
  refine ⟨?_, ?_, ?_, ?_⟩
  · rw [hsame]
    exact h.nodup
  · rw [hsame, hissued]
    exact h.issued
  · intro id
    rw [hsame, hins, hrem]
    exact h.listed_iff id
  · rw [hsame]
    simp only [hins]
    exact h.newest_first

/-- A name that is taken out keeps the shape. -/
theorem remove (h : Shaped past) (id : String) :
    Shaped (⟨.removed id, past.listed.filter (· != id)⟩ :: past) := by
  have hins : ∀ a, insertedAt a (⟨.removed id, past.listed.filter (· != id)⟩ :: past)
      = insertedAt a past := fun _ => rfl
  -- this moment is the epoch of the removal, and no epoch of an insertion changes
  have hrem : ∀ a, removedAt a (⟨.removed id, past.listed.filter (· != id)⟩ :: past)
      = if id = a then past.length + 1 else removedAt a past := by
    intro a
    simp [removedAt, QueueMark.removes]
  refine ⟨h.nodup.filter _, ?issued, ?listed_iff, ?newest_first⟩
  case issued => exact fun a ha => h.issued a (List.mem_filter.1 ha).1
  case listed_iff =>
    intro a
    show a ∈ past.listed.filter (· != id) ↔ _
    rw [List.mem_filter, hins, hrem]
    by_cases ha : id = a
    · -- it was inserted at the latest by the end of the past
      have := insertedAt_le past a
      simp only [ha, if_true, bne_self_eq_false, Bool.false_eq_true, and_false, false_iff]
      omega
    · rw [if_neg ha, ← h.listed_iff]
      simp [Ne.symm ha]
  case newest_first =>
    simp only [hins]
    exact h.newest_first.filter _

end Shaped

/-- In a lawful timeline the list has the shape that the past gives it. -/
theorem Lawful.shaped {t : Timeline} (h : t.Lawful) : t.Shaped := by
  -- the induction is on the timeline: each mark keeps the shape that the past has
  induction t with
  | nil =>
    exact ⟨List.nodup_nil, fun _ hid => absurd hid List.not_mem_nil,
      fun id => by simp [listed, insertedAt, removedAt], List.Pairwise.nil⟩
  | cons m past ih =>
    have hpast := ih h.1
    obtain ⟨mark, ids⟩ := m
    cases mark with
    | added id =>
      obtain ⟨hid, hids⟩ : id = Ids.sequential (issued past + 1) ∧ ids = id :: listed past := h.2
      -- a name that is issued now was never issued before, so that it cannot be listed
      have hnew : id ∉ listed past := by
        intro hmem
        exact Ids.sequential_not_mem_firstSequential (issued past) (hid ▸ hpast.issued id hmem)
      refine hpast.insert hnew hids (fun a => rfl) (fun a => rfl) fun a ha => ?_
      change a ∈ ids at ha
      rw [hids, List.mem_cons] at ha
      rcases ha with rfl | ha
      · rw [hid]
        exact Ids.sequential_mem_firstSequential (issued past)
      · exact Ids.firstSequential_mono (Nat.le_succ _) (hpast.issued a ha)
    | updated id found =>
      obtain ⟨hid, hfound, hids⟩ : id ∈ Ids.firstSequential (issued past) ∧
        found = decide (id ∈ listed past) ∧
        ids = if id ∈ listed past then listed past else id :: listed past := h.2
      by_cases hmem : id ∈ listed past
      · -- a listed name stays where it is
        rw [if_pos hmem] at hids
        refine hpast.keep hids (fun a => ?_) (fun a => rfl) rfl
        simp [QueueMark.inserts, hfound, hmem]
      · -- any other one is inserted anew, however old it is
        rw [if_neg hmem] at hids
        refine hpast.insert hmem hids (fun a => ?_) (fun a => rfl) fun a ha => ?_
        · simp [QueueMark.inserts, hfound, hmem]
          rfl
        · change a ∈ ids at ha
          rw [hids, List.mem_cons] at ha
          rcases ha with rfl | ha
          · exact hid
          · exact hpast.issued a ha
    | removed id =>
      obtain ⟨-, hids⟩ : id ∈ listed past ∧ ids = (listed past).filter (· != id) := h.2
      rw [hids]
      exact hpast.remove id
    | called => exact hpast.keep h.2 (fun a => rfl) (fun a => rfl) rfl

end Timeline

end AppShell
