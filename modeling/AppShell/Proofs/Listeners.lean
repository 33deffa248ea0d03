/-
AppShell/Proofs/Listeners.lean

Numbers in a table of listeners.

The numbers of a table grow with the place in the table and never pass the
number issued last (`Ordered`).  So a number stands for one listener
(`Ordered.unique`), and detaching by number takes away exactly that one.  Which
listeners of a kind are attached is read off the table by a filter; attaching
and detaching act on the filtered table as they act on the whole
(`filter_insert`, `filter_erase`), and so they do on the table whose listeners
are mapped (`map_insert`, `map_erase`).
-/
import AppShell.Listeners

namespace AppShell.Listeners

variable {α : Type}

/-- The numbers of a table grow, and none was issued after the last one. -/
structure Ordered (t : Listeners α) : Prop where
  increasing : t.entries.Pairwise fun e f => e.1 < f.1
  issued : ∀ e ∈ t.entries, e.1 ≤ t.issued

theorem ordered_empty : (empty : Listeners α).Ordered :=
  ⟨List.Pairwise.nil, fun _ h => absurd h List.not_mem_nil⟩

/-- A new entry comes last, under the next number. -/
theorem entries_insert (t : Listeners α) (listener : α) :
    (t.insert listener).2.entries = t.entries ++ [(t.issued + 1, listener)] := rfl

/-- An insertion keeps the order: the next number lies above all others. -/
theorem Ordered.insert {t : Listeners α} (h : t.Ordered) (listener : α) :
    (t.insert listener).2.Ordered where
  increasing := by
    rw [entries_insert, List.pairwise_append]
    refine ⟨h.increasing, List.pairwise_singleton _ _, ?_⟩
    intro e he f hf
    rw [List.mem_singleton] at hf
    subst hf
    exact Nat.lt_succ_of_le (h.issued e he)
  issued := by
    intro e he
    show e.1 ≤ t.issued + 1
    rw [entries_insert, List.mem_append, List.mem_singleton] at he
    rcases he with he | rfl
    · exact Nat.le_succ_of_le (h.issued e he)
    · exact Nat.le_refl _

/-- An erasure keeps the order of what is left. -/
theorem Ordered.erase {t : Listeners α} (h : t.Ordered) (number : Nat) :
    (t.erase number).Ordered where
  increasing := h.increasing.filter _
  issued := fun e he => h.issued e (List.mem_filter.1 he).1

/-- A number stands for one listener. -/
theorem Ordered.unique {t : Listeners α} (h : t.Ordered) {number : Nat} {a b : α}
    (ha : (number, a) ∈ t.entries) (hb : (number, b) ∈ t.entries) : a = b := by
  have aux : ∀ es : List (Nat × α), (es.Pairwise fun e f => e.1 < f.1) →
      (number, a) ∈ es → (number, b) ∈ es → a = b := by
    intro es hes h₁ h₂
    induction hes with
    | nil => cases h₁
    | cons hlt _ ih =>
      rcases List.mem_cons.1 h₁ with rfl | ha'
      · rcases List.mem_cons.1 h₂ with hb' | hb'
        · exact (Prod.mk.inj hb').2.symm
        · exact absurd (hlt _ hb') (Nat.lt_irrefl _)
      · rcases List.mem_cons.1 h₂ with rfl | hb'
        · exact absurd (hlt _ ha') (Nat.lt_irrefl _)
        · exact ih ha' hb'
  exact aux t.entries h.increasing ha hb

/-- The next number is not in use. -/
theorem Ordered.not_mem_next {t : Listeners α} (h : t.Ordered) {e : Nat × α}
    (he : e ∈ t.entries) : e.1 ≠ t.issued + 1 := by
  have := h.issued e he
  omega

/-! ### Listeners of a kind -/

/-- An insertion shows up in a selection at its end, if the selection takes it. -/
theorem filter_insert (t : Listeners α) (listener : α) (p : Nat × α → Bool) :
    (t.insert listener).2.entries.filter p
      = t.entries.filter p ++ [(t.issued + 1, listener)].filter p := by
  rw [entries_insert, List.filter_append]

/-- An erasure and a selection may be made in either order. -/
theorem filter_erase (t : Listeners α) (number : Nat) (p : Nat × α → Bool) :
    (t.erase number).entries.filter p
      = (t.entries.filter p).filter fun e => e.1 != number := by
  rw [entries_erase, List.filter_filter, List.filter_filter]
  exact List.filter_congr fun e _ => Bool.and_comm ..

/-- Detaching a listener of another kind leaves those of a kind as they are. -/
theorem Ordered.filter_erase_of_mem {t : Listeners α} (h : t.Ordered) {number : Nat} {a : α}
    (ha : (number, a) ∈ t.entries) {p : Nat × α → Bool} (hp : ∀ n, p (n, a) = false) :
    (t.erase number).entries.filter p = t.entries.filter p := by
  rw [filter_erase, List.filter_eq_self]
  rintro ⟨n, b⟩ he
  obtain ⟨hmem, hpb⟩ := List.mem_filter.1 he
  have hn : n ≠ number := by
    rintro rfl
    rw [h.unique hmem ha, hp] at hpb
    exact Bool.noConfusion hpb
  simpa using hn

/-! ### Tables under a map -/

variable {β γ : Type}

/-- The table with its listeners mapped. -/
def map (f : β → γ) (t : Listeners β) : Listeners γ :=
  ⟨t.issued, t.entries.map fun e => (e.1, f e.2)⟩

/-- An insertion goes along with a change of all listeners. -/
theorem map_insert (f : β → γ) (t : Listeners β) (l : β) :
    (t.insert l).2.map f = ((t.map f).insert (f l)).2 := by
  simp [map, insert]

/-- An erasure goes along with a change of all listeners. -/
theorem map_erase (f : β → γ) (t : Listeners β) (number : Nat) :
    (t.erase number).map f = (t.map f).erase number := by
  simp only [map, erase, List.filter_map]
  rfl

theorem snapshot_map (f : β → γ) (t : Listeners β) : (t.map f).snapshot = t.snapshot.map f := by
  simp only [map, snapshot, List.map_map]
  rfl

/-- A listener is in the snapshot when it stands in the table under some number. -/
theorem mem_snapshot_iff {t : Listeners β} {l : β} :
    l ∈ t.snapshot ↔ ∃ number, (number, l) ∈ t.entries := by
  simp [snapshot]

end AppShell.Listeners
