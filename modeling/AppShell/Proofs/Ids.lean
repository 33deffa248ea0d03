/-
AppShell/Proofs/Ids.lean

Numbered names do not repeat.

The digits of a number can be read back (`toString_injective`), so a sequence
never issues a name twice (`sequential_injective`): the names issued so far are
distinct, and the next one is not among them.
-/
import AppShell.Ids

namespace AppShell.Ids

theorem toString_injective {m n : Nat} (h : toString m = toString n) : m = n := by
  have hdigits : Nat.toDigits 10 m = Nat.toDigits 10 n :=
    String.ofList_injective (by simpa only [Nat.toString_eq_ofList_toDigits] using h)
  have hvalue := congrArg (fun ds => Nat.ofDigitChars 10 ds 0) hdigits
  simpa only [Nat.ofDigitChars_ten_toDigits] using hvalue

theorem sequential_injective {m n : Nat} (h : sequential m = sequential n) : m = n :=
  toString_injective ((String.append_right_inj "n").1 h)

theorem mem_firstSequential {id : String} {count : Nat} :
    id ∈ firstSequential count ↔ ∃ n, n < count ∧ sequential (n + 1) = id := by
  simp [firstSequential]

theorem firstSequential_mono {count count' : Nat} (h : count ≤ count') {id : String}
    (hid : id ∈ firstSequential count) : id ∈ firstSequential count' := by
  obtain ⟨n, hn, rfl⟩ := mem_firstSequential.1 hid
  exact mem_firstSequential.2 ⟨n, Nat.lt_of_lt_of_le hn h, rfl⟩

theorem sequential_mem_firstSequential (count : Nat) :
    sequential (count + 1) ∈ firstSequential (count + 1) :=
  mem_firstSequential.2 ⟨count, Nat.lt_succ_self count, rfl⟩

/-- The next name is none of those issued so far. -/
theorem sequential_not_mem_firstSequential (count : Nat) :
    sequential (count + 1) ∉ firstSequential count := by
  intro h
  obtain ⟨n, hn, he⟩ := mem_firstSequential.1 h
  have := sequential_injective he
  omega

end AppShell.Ids
