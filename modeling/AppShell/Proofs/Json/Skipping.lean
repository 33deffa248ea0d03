/-
AppShell/Proofs/Json/Skipping.lean

Values that are passed over.

A value of any shape and depth is passed over up to the blanks behind it
(`skipValue_item`).  No bound of the skipping functions is reached, since every
phrase leaves fewer characters than it was given (`Spells.length_lt`).
-/
import AppShell.Json.Skip
import AppShell.Proofs.Json.Numbers
import AppShell.Proofs.Json.Strings

namespace AppShell.Json

/-! ### What a phrase starts with -/

/-- Every phrase takes up some of the text. -/
theorem Spells.length_lt {p : Phrase} {cs rest : List Char} (h : Spells p cs rest) :
    rest.length < cs.length := by
  induction h with
  | null | boolTrue | boolFalse => simp only [List.length_cons]; omega
  | number h => exact h.length_lt
  | str h => exact Nat.lt_succ_of_lt h.length_lt
  | emptyList h | emptyObject h =>
    have := h.length_le
    simp only [List.length_cons] at *
    omega
  | list _ ih | object _ ih => exact Nat.lt_succ_of_lt ih
  | item hbefore _ hbehind ih =>
    have := hbefore.length_le
    have := hbehind.length_le
    omega
  | member hbefore hkey hbehind _ ih =>
    have := hbefore.length_le
    have := hkey.length_lt
    have := hbehind.length_le
    simp only [List.length_cons] at *
    omega
  | lastItem _ ih | lastMember _ ih => exact Nat.lt_of_succ_lt ih
  | nextItem _ _ ih ih' | nextMember _ _ ih ih' => exact Nat.lt_trans ih' (Nat.lt_of_succ_lt ih)

/-- Fuel for all characters is fuel for one step at least. -/
theorem Spells.exists_fuel {p : Phrase} {cs rest : List Char} {fuel : Nat} (h : Spells p cs rest)
    (hfuel : cs.length ≤ fuel) : ∃ n, fuel = n + 1 :=
  Nat.exists_eq_add_of_le' (Nat.le_trans (Nat.zero_lt_of_lt h.length_lt) hfuel)

theorem isDigit_ne {c d : Char} (hc : c.isDigit = true) (hd : d.isDigit = false) : c ≠ d := by
  rintro rfl
  rw [hc] at hd
  cases hd

theorem isSpace_of_isDigit {c : Char} (hc : c.isDigit = true) : isSpace c = false := by
  simp only [isSpace, Bool.or_eq_false_iff, beq_eq_false_iff_ne]
  exact ⟨⟨⟨isDigit_ne hc rfl, isDigit_ne hc rfl⟩, isDigit_ne hc rfl⟩, isDigit_ne hc rfl⟩

/-- Which characters a value may start with. -/
def Tree.Starts (c : Char) : Tree → Prop
  | .null => c = 'n'
  | .bool true => c = 't'
  | .bool false => c = 'f'
  | .number _ => c = '-' ∨ c.isDigit = true
  | .str _ => c = '"'
  | .arr _ => c = '['
  | .obj _ => c = '{'

/-- A value starts with a character that tells its kind. -/
theorem Spells.exists_head {v : Tree} {cs rest : List Char} (h : Spells (.value v) cs rest) :
    ∃ c cs', cs = c :: cs' ∧ v.Starts c := by
  cases h with
  | number h =>
    cases h with
    | plain _ h =>
      obtain ⟨d, cs', rfl, hd⟩ := h.exists_head
      exact ⟨d, cs', rfl, .inr hd⟩
    | minus => exact ⟨_, _, rfl, .inl rfl⟩
  | null | boolTrue | boolFalse | str | emptyList | list | emptyObject | object =>
    exact ⟨_, _, rfl, rfl⟩

/-- No value starts with a blank or with the bracket that ends an array. -/
theorem Tree.Starts.ne {v : Tree} {c : Char} (h : v.Starts c) : isSpace c = false ∧ c ≠ ']' := by
  rcases v with - | b | n | s | vs | ms
  · cases h; decide
  · cases b <;> cases h <;> decide
  · rcases h with rfl | hc
    · decide
    · exact ⟨isSpace_of_isDigit hc, isDigit_ne hc rfl⟩
  all_goals cases h; decide

/-- Only null starts as `null` does. -/
theorem Tree.Starts.eq_null {v : Tree} (h : v.Starts 'n') : v = .null := by
  rcases v with - | b | n | s | vs | ms
  · rfl
  · cases b <;> cases h
  · rcases h with h | h <;> cases h
  all_goals cases h

/-- The items of a list start with no closing bracket. -/
theorem Spells.items_head {vs : List Tree} {cs rest : List Char} (h : Spells (.items vs) cs rest) :
    ∃ c cs', skipSpace cs = c :: cs' ∧ c ≠ ']' := by
  have hitem : ∀ {v : Tree} {behind : List Char}, Spells (.item v) cs behind →
      ∃ c cs', skipSpace cs = c :: cs' ∧ c ≠ ']' := by
    intro v behind h
    cases h with
    | item hbefore h _ =>
      obtain ⟨c, cs', rfl, hc⟩ := h.exists_head
      exact ⟨c, cs', hbefore.skipSpace_eq hc.ne.1, hc.ne.2⟩
  cases h with
  | lastItem h | nextItem h => exact hitem h

/-- The members of an object start with a quotation mark. -/
theorem Spells.members_head {ms : List (String × Tree)} {cs rest : List Char}
    (h : Spells (.members ms) cs rest) : ∃ cs', skipSpace cs = '"' :: cs' := by
  have hmember : ∀ {key : String} {v : Tree} {behind : List Char},
      Spells (.member key v) cs behind → ∃ cs', skipSpace cs = '"' :: cs' := by
    intro key v behind h
    cases h with
    | member hbefore => exact ⟨_, hbefore.skipSpace_eq rfl⟩
  cases h with
  | lastMember h | nextMember h => exact hmember h

/-! ### Blanks in front -/

theorem skipSpace_skipSpace (cs : List Char) : skipSpace (skipSpace cs) = skipSpace cs := by
  induction cs with
  | nil => rfl
  | cons c cs ih =>
    by_cases hc : isSpace c
    · rw [skipSpace, skipSpace, List.dropWhile_cons_of_pos hc]
      exact ih
    · rw [skipSpace, skipSpace, List.dropWhile_cons_of_neg hc, List.dropWhile_cons_of_neg hc]

/-- What is skipped does not depend on the blanks in front of it. -/
theorem skipNested_congr {cs cs' : List Char} (h : skipSpace cs = skipSpace cs') (bound : Nat) :
    skipNested (bound + 1) cs = skipNested (bound + 1) cs' := by
  rw [skipNested, skipNested, skipWith, skipWith, h]

theorem skipMember_skipSpace (item : Skipper) (cs : List Char) :
    skipMember item (skipSpace cs) = skipMember item cs := by
  rw [skipMember, skipMember, skipSpace_skipSpace]

/-- A digit starts a number, which is skipped as one. -/
theorem skipWith_digit {d : Char} (hd : d.isDigit = true) (fuel : Nat) (nested : Skipper)
    (cs : List Char) : skipWith fuel nested (d :: cs) = skipNumber (d :: cs) := by
  rw [skipWith, (Spaces.none _).skipSpace_eq (isSpace_of_isDigit hd)]
  split
  · next he => cases he
  · next he =>
    cases he
    split <;> first | cases hd | skip
    rw [if_pos hd]

/-! ### Phrases -/

/-- What it means that a phrase is passed over, within any bound that its length allows. -/
def Phrase.Skipped (p : Phrase) (cs rest : List Char) : Prop :=
  ∀ bound, cs.length ≤ bound →
    match p with
    | .value _ => Closed rest → skipNested (bound + 1) cs = .ok rest
    | .item _ => Closed rest → ∃ cs', skipNested (bound + 1) cs = .ok cs' ∧ Spaces cs' rest
    | .items _ => ∀ fuel, cs.length ≤ fuel →
      (skipNested (bound + 1) cs >>= skipItems (skipNested (bound + 1)) fuel false) = .ok rest
    | .member .. => Closed rest →
      ∃ cs', skipMember (skipNested (bound + 1)) cs = .ok cs' ∧ Spaces cs' rest
    | .members _ => ∀ fuel, cs.length ≤ fuel →
      (skipMember (skipNested (bound + 1)) cs >>= skipMembers (skipNested (bound + 1)) fuel false)
        = .ok rest

section Skipped

variable {cs cs' rest : List Char} {item : Skipper}

/-- A number is skipped to the character behind it. -/
theorem Numeral.skipNested {n : Literal} (h : Numeral n cs rest) (hrest : Closed rest)
    (bound : Nat) : skipNested (bound + 1) cs = .ok rest := by
  cases h with
  | plain _ h =>
    obtain ⟨d, cs', rfl, hd⟩ := h.exists_head
    rw [Json.skipNested, skipWith_digit hd]
    exact h.scanNumber hrest
  | minus _ h => exact h.scanNumber hrest

/-- Behind its bracket a list goes on with its first item. -/
theorem skipItems_first {vs : List Tree} (h : Spells (.items vs) cs rest) (bound fuel : Nat) :
    skipItems (skipNested (bound + 1)) (fuel + 1) true cs =
      (skipNested (bound + 1) cs >>= skipItems (skipNested (bound + 1)) fuel false) := by
  obtain ⟨c, cs', hspace, hc⟩ := h.items_head
  have hhead : skipNested (bound + 1) (c :: cs') = skipNested (bound + 1) cs :=
    skipNested_congr (by rw [← hspace, skipSpace_skipSpace]) bound
  rw [skipItems, hspace]
  split
  · next he => cases he
  · next he =>
    cases he
    exact absurd rfl hc
  · next he =>
    cases he
    rw [if_pos rfl, hhead]

/-- Behind a comma the next item is skipped. -/
theorem skipItems_next (h : Spaces cs (',' :: cs')) (fuel : Nat) :
    skipItems item (fuel + 1) false cs = (item cs' >>= skipItems item fuel false) := by
  rw [skipItems, h.skipSpace_eq rfl]
  rfl

/-- At its closing bracket a list is skipped. -/
theorem skipItems_end (h : Spaces cs (']' :: rest)) (fuel : Nat) (first : Bool) :
    skipItems item (fuel + 1) first cs = .ok rest := by
  rw [skipItems, h.skipSpace_eq rfl]
  rfl

/-- Behind its brace an object goes on with its first member. -/
theorem skipMembers_first {ms : List (String × Tree)} (h : Spells (.members ms) cs rest)
    (fuel : Nat) :
    skipMembers item (fuel + 1) true cs = (skipMember item cs >>= skipMembers item fuel false) := by
  obtain ⟨cs', hspace⟩ := h.members_head
  rw [skipMembers, ← skipMember_skipSpace, hspace]
  rfl

/-- Behind a comma the next member is skipped. -/
theorem skipMembers_next (h : Spaces cs (',' :: cs')) (fuel : Nat) :
    skipMembers item (fuel + 1) false cs =
      (skipMember item cs' >>= skipMembers item fuel false) := by
  rw [skipMembers, h.skipSpace_eq rfl]
  rfl

/-- At its closing brace an object is skipped. -/
theorem skipMembers_end (h : Spaces cs ('}' :: rest)) (fuel : Nat) (first : Bool) :
    skipMembers item (fuel + 1) first cs = .ok rest := by
  rw [skipMembers, h.skipSpace_eq rfl]
  rfl

end Skipped

/-- Every phrase is passed over. -/
theorem Spells.skipped {p : Phrase} {cs rest : List Char} (h : Spells p cs rest) :
    p.Skipped cs rest := by
  -- the induction is on how the phrase is spelled; the bound on what is nested and the fuel both
  -- lie above the characters that are left
  induction h with
  | null | boolTrue | boolFalse => exact fun _ _ _ => rfl
  | number h => exact fun bound _ hrest => h.skipNested hrest bound
  | str h => exact fun _ _ _ => h.skipChars
  | emptyList h =>
    rintro (_ | bound) hbound _
    · cases hbound
    · exact skipItems_end h bound true
  | emptyObject h =>
    rintro (_ | bound) hbound _
    · cases hbound
    · exact skipMembers_end h bound true
  | list h ih =>
    rintro (_ | bound) hbound _
    · cases hbound
    · have hbound := Nat.le_of_succ_le_succ hbound
      exact (skipItems_first h bound bound).trans (ih bound hbound bound hbound)
  | object h ih =>
    rintro (_ | bound) hbound _
    · cases hbound
    · have hbound := Nat.le_of_succ_le_succ hbound
      exact (skipMembers_first h bound).trans (ih bound hbound bound hbound)
  | item hbefore _ hbehind ih =>
    intro bound hbound hrest
    refine ⟨_, ?_, hbehind⟩
    rw [skipNested_congr hbefore.skipSpace bound]
    exact ih bound (Nat.le_trans hbefore.length_le hbound) (hbehind.closed hrest)
  | lastItem h ih =>
    -- behind the last item the bracket follows at once
    intro bound hbound fuel hfuel
    obtain ⟨cs', hitem, hend⟩ := ih bound hbound (.cons (by decide) _)
    obtain ⟨fuel, rfl⟩ := h.exists_fuel hfuel
    rw [hitem]
    exact skipItems_end hend fuel false
  | nextItem h _ ih ih' =>
    intro bound hbound fuel hfuel
    obtain ⟨cs', hitem, hcomma⟩ := ih bound hbound (.cons (by decide) _)
    obtain ⟨fuel, rfl⟩ := h.exists_fuel hfuel
    have hlength := h.length_lt
    rw [hitem]
    refine (skipItems_next hcomma fuel).trans (ih' bound ?_ fuel ?_)
    all_goals simp only [List.length_cons] at hlength; omega
  | member hbefore hkey hbehind h ih =>
    -- a name takes characters of its own, so that the bound still lies above what is behind the
    -- colon
    intro bound hbound hrest
    have := hbefore.length_le
    have := hkey.length_lt
    have := hbehind.length_le
    obtain ⟨cs', hitem, hblank⟩ := ih bound (by simp only [List.length_cons] at *; omega) hrest
    refine ⟨cs', ?_, hblank⟩
    rw [skipMember, hbefore.skipSpace_eq rfl]
    show (skipChars _ >>= expectColon >>= _) = _
    rw [hkey.skipChars]
    show (expectColon _ >>= _) = _
    rw [expectColon, hbehind.skipSpace_eq rfl]
    exact hitem
  | lastMember h ih =>
    intro bound hbound fuel hfuel
    obtain ⟨cs', hmember, hend⟩ := ih bound hbound (.cons (by decide) _)
    obtain ⟨fuel, rfl⟩ := h.exists_fuel hfuel
    rw [hmember]
    exact skipMembers_end hend fuel false
  | nextMember h _ ih ih' =>
    intro bound hbound fuel hfuel
    obtain ⟨cs', hmember, hcomma⟩ := ih bound hbound (.cons (by decide) _)
    obtain ⟨fuel, rfl⟩ := h.exists_fuel hfuel
    have hlength := h.length_lt
    rw [hmember]
    refine (skipMembers_next hcomma fuel).trans (ih' bound ?_ fuel ?_)
    all_goals simp only [List.length_cons] at hlength; omega

/-- A value with blanks around it is passed over up to the blanks behind it. -/
theorem skipValue_item {v : Tree} {cs rest : List Char} (h : Spells (.item v) cs rest)
    (hrest : Closed rest) : ∃ cs', skipValue cs = .ok cs' ∧ Spaces cs' rest :=
  h.skipped cs.length (Nat.le_refl _) hrest

end AppShell.Json
