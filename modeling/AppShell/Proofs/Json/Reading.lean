/-
AppShell/Proofs/Json/Reading.lean

A text is read as the value that it spells.

The reader follows the grammar: whatever spells a tree in front of the rest is
read as the value of the tree, and the rest is left (`Spells.read`).  Blanks
behind a value are left too, so a phrase is read up to `Spaces`.  As for values
that are passed over, the bound on the number of entries is not reached.

The main statement is `parse_of_isSpelling`.
-/
import AppShell.Proofs.Json.Skipping
import AppShell.Proofs.Json.Values

namespace AppShell.Json

/-! ### Blanks in front -/

theorem readValue_congr {cs cs' : List Char} (h : skipSpace cs = skipSpace cs') (depth : Nat) :
    readValue depth cs = readValue depth cs' := by
  cases depth <;> rw [readValue, readWith, h, readWith]

theorem readWith_digit {d : Char} (hd : d.isDigit = true) (nested : Option (Reader Json))
    (cs : List Char) : readWith nested (d :: cs) = readNumber false (d :: cs) := by
  rw [readWith, (Spaces.none _).skipSpace_eq (isSpace_of_isDigit hd)]
  split
  · next he => cases he
  · next he =>
    cases he
    split <;> first | cases hd | skip
    rw [if_pos hd]

/-! ### Entries -/

/-- The entries of a list from its first item on, and what follows them and its end. -/
def readEntries (item : Reader Json) (fuel : Nat) (cs : List Char) :
    Except Fault (Items × List Char) :=
  match item cs with
  | .error f => .error f
  | .ok (v, rest) =>
    match readItems item fuel false rest with
    | .error f => .error f
    | .ok (vs, rest) => .ok (.cons v vs, rest)

/-- The members of an object from behind the quote of the first key on, and what follows them. -/
def readMemberEntries (item : Reader Json) (fuel : Nat) (cs : List Char) :
    Except Fault (List (String × Json) × List Char) := do
  let (key, rest) ← readText cs
  let rest ← expectColon rest
  let (v, rest) ← item rest
  let (vs, rest) ← readMembers item fuel false rest
  return ((key, v) :: vs, rest)

section Entries

variable {cs cs' rest tail : List Char} {item : Reader Json} {c : Char}

theorem readEntries_ok {v : Json} {vs : Items} {fuel : Nat} (hitem : item cs = .ok (v, cs'))
    (hitems : readItems item fuel false cs' = .ok (vs, rest)) :
    readEntries item fuel cs = .ok (.cons v vs, rest) := by
  simp only [readEntries, hitem, hitems]

theorem readMemberEntries_ok {key : String} {v : Json} {ps : List (String × Json)} {fuel : Nat}
    {behind after : List Char} (hkey : readText cs = .ok (key, behind))
    (hcolon : expectColon behind = .ok after) (hitem : item after = .ok (v, cs'))
    (hmembers : readMembers item fuel false cs' = .ok (ps, rest)) :
    readMemberEntries item fuel cs = .ok ((key, v) :: ps, rest) := by
  simp only [readMemberEntries, hkey, hcolon, hitem, hmembers, bind, Except.bind, pure, Except.pure]

theorem readEntries_skipSpace (depth fuel : Nat) (cs : List Char) :
    readEntries (readValue depth) fuel (skipSpace cs) = readEntries (readValue depth) fuel cs := by
  rw [readEntries, readValue_congr (skipSpace_skipSpace cs), readEntries]

theorem readItems_end (h : Spaces cs (']' :: rest)) (fuel : Nat) (first : Bool) :
    readItems item (fuel + 1) first cs = .ok (.nil, rest) := by
  rw [readItems, h.skipSpace_eq rfl]
  rfl

/-- Behind its bracket a list goes on with its first item. -/
theorem readItems_first (hspace : skipSpace cs = c :: tail) (hc : c ≠ ']') (fuel : Nat) :
    readItems item (fuel + 1) true cs = readEntries item fuel (skipSpace cs) := by
  rw [readItems, hspace]
  split
  · next he => cases he
  · next he =>
    cases he
    exact absurd rfl hc
  · next he =>
    cases he
    exact if_pos rfl

/-- Behind a comma a list goes on with its next item. -/
theorem readItems_next (h : Spaces cs (',' :: cs')) (hspace : skipSpace cs' = c :: tail)
    (hc : c ≠ ']') (fuel : Nat) :
    readItems item (fuel + 1) false cs = readEntries item fuel (skipSpace cs') := by
  rw [readItems, h.skipSpace_eq rfl]
  split
  · next he => cases he
  · next he => cases he
  · next he =>
    cases he
    simp only [Bool.false_eq_true, if_false, ne_eq, not_true_eq_false, hspace]
    split
    · next he => cases he
    · next he =>
      cases he
      exact absurd rfl hc
    · rfl

theorem readMembers_end (h : Spaces cs ('}' :: rest)) (fuel : Nat) (first : Bool) :
    readMembers item (fuel + 1) first cs = .ok ([], rest) := by
  rw [readMembers, h.skipSpace_eq rfl]
  rfl

/-- Behind its brace an object goes on with its first member. -/
theorem readMembers_first (hspace : skipSpace cs = '"' :: tail) (fuel : Nat) :
    readMembers item (fuel + 1) true cs = readMemberEntries item fuel tail := by
  rw [readMembers, hspace]
  rfl

/-- Behind a comma an object goes on with its next member. -/
theorem readMembers_next (h : Spaces cs (',' :: cs')) (hspace : skipSpace cs' = '"' :: tail)
    (fuel : Nat) :
    readMembers item (fuel + 1) false cs = readMemberEntries item fuel tail := by
  rw [readMembers, h.skipSpace_eq rfl]
  split
  · next he => cases he
  · next he => cases he
  · next he =>
    cases he
    simp only [Bool.false_eq_true, if_false, ne_eq, not_true_eq_false, hspace]
    rfl

end Entries

/-! ### Phrases -/

/-- What it means that a phrase is read, for values that nest at most as deep as is allowed. -/
def Phrase.Read (p : Phrase) (cs rest : List Char) : Prop :=
  ∀ depth,
    match p with
    | .value t => ∀ v, t.value? depth = some v → Closed rest → readValue depth cs = .ok (v, rest)
    | .item t => ∀ v, t.value? depth = some v → Closed rest →
      ∃ cs', readValue depth cs = .ok (v, cs') ∧ Spaces cs' rest
    | .items ts => ∀ vs, List.Forall₂ (fun t v => t.value? depth = some v) ts vs →
      ∀ fuel, cs.length ≤ fuel →
        readEntries (readValue depth) fuel cs = .ok (Items.ofList vs, rest)
    | .member key t => ∀ v, t.value? depth = some v → Closed rest →
      ∃ inside behind after cs', skipSpace cs = '"' :: inside ∧
        readText inside = .ok (key, behind) ∧ expectColon behind = .ok after ∧
        readValue depth after = .ok (v, cs') ∧ Spaces cs' rest
    | .members ms => ∀ ps, List.Forall₂ (Tree.Entry depth) ms ps →
      ∀ fuel, cs.length ≤ fuel → ∃ inside, skipSpace cs = '"' :: inside ∧
        readMemberEntries (readValue depth) fuel inside = .ok (ps, rest)

theorem Numeral.readValue {n : Literal} {cs rest : List Char} {v : Json} (h : Numeral n cs rest)
    (hrest : Closed rest) (hvalue : n.value = .ok v) (depth : Nat) :
    readValue depth cs = .ok (v, rest) := by
  have hread : ∀ {cs}, Magnitude n cs rest → readNumber n.negative cs = .ok (v, rest) := by
    intro cs h
    simp only [readNumber, h.scanNumber_eq hrest, hvalue]
  cases h with
  | plain hsign h =>
    have hnumber := hread h
    rw [hsign] at hnumber
    obtain ⟨d, cs', rfl, hd⟩ := h.exists_head
    cases depth <;> rw [Json.readValue, readWith_digit hd, hnumber]
  | minus hsign h =>
    have hnumber := hread h
    rw [hsign] at hnumber
    cases depth <;> exact hnumber

/-- Every phrase is read. -/
theorem Spells.read {p : Phrase} {cs rest : List Char} (h : Spells p cs rest) : p.Read cs rest := by
  induction h with
  | null | boolTrue | boolFalse =>
    rintro (_ | depth) v hv _ <;> cases hv <;> rfl
  | number h =>
    intro depth v hv hrest
    exact h.readValue hrest (Tree.value?_number_eq_some_iff.1 hv) depth
  | str h =>
    intro depth v hv _
    have hread := h.readText
    cases depth <;> cases hv <;> exact congrArg (Except.map _) hread
  | emptyList h =>
    rintro (_ | depth) v hv _
    · cases hv
    · cases hv
      exact congrArg (Except.map _) (readItems_end h _ true)
  | emptyObject h =>
    rintro (_ | depth) v hv _
    · cases hv
    · cases hv
      exact congrArg (Except.map _) (readMembers_end h _ true)
  | @list ts cs rest h ih =>
    rintro (_ | depth) v hv _
    · cases hv
    · -- the first item is no bracket, so the list does not end where it begins
      obtain ⟨vs, hvs, rfl⟩ := Tree.value?_arr_eq_some_iff.1 hv
      obtain ⟨c, tail, hspace, hc⟩ := h.items_head
      have hentries := ih depth vs hvs cs.length (Nat.le_refl _)
      rw [← readEntries_skipSpace, ← readItems_first hspace hc] at hentries
      exact congrArg (Except.map _) hentries
  | @object ms cs rest h ih =>
    rintro (_ | depth) v hv _
    · cases hv
    · obtain ⟨ps, hps, rfl⟩ := Tree.value?_obj_eq_some.1 hv
      obtain ⟨inside, hspace, hentries⟩ := ih depth ps hps cs.length (Nat.le_refl _)
      exact congrArg (Except.map _) ((readMembers_first hspace cs.length).trans hentries)
  | item hbefore _ hbehind ih =>
    intro depth v hv hrest
    refine ⟨_, ?_, hbehind⟩
    rw [readValue_congr hbefore.skipSpace depth]
    exact ih depth v hv (hbehind.closed hrest)
  | lastItem h ih =>
    intro depth vs hvs fuel hfuel
    obtain ⟨v, _, hv, hnil, rfl⟩ := List.forall₂_cons_left_iff.1 hvs
    cases hnil
    obtain ⟨cs', hitem, hend⟩ := ih depth v hv (.cons (by decide) _)
    obtain ⟨fuel, rfl⟩ := h.exists_fuel hfuel
    exact readEntries_ok hitem (readItems_end hend fuel false)
  | nextItem h h' ih ih' =>
    intro depth _ hvs fuel hfuel
    obtain ⟨v, vs, hv, hrestvs, rfl⟩ := List.forall₂_cons_left_iff.1 hvs
    obtain ⟨cs', hitem, hcomma⟩ := ih depth v hv (.cons (by decide) _)
    -- the item took up some of the text, so the bound holds for what is left
    obtain ⟨fuel, rfl⟩ := h.exists_fuel hfuel
    have hlength := h.length_lt
    obtain ⟨c, tail, hspace, hc⟩ := h'.items_head
    refine readEntries_ok hitem ?_
    rw [readItems_next hcomma hspace hc, readEntries_skipSpace]
    exact ih' depth vs hrestvs fuel (by simp only [List.length_cons] at hlength; omega)
  | member hbefore hkey hbehind h ih =>
    intro depth v hv hrest
    obtain ⟨cs', hitem, hblank⟩ := ih depth v hv hrest
    refine ⟨_, _, _, cs', hbefore.skipSpace_eq rfl, hkey.readText, ?_, hitem, hblank⟩
    rw [expectColon, hbehind.skipSpace_eq rfl]
    rfl
  | lastMember h ih =>
    intro depth _ hps fuel hfuel
    obtain ⟨⟨key, v⟩, _, ⟨rfl, hv⟩, hnil, rfl⟩ := List.forall₂_cons_left_iff.1 hps
    cases hnil
    obtain ⟨inside, behind, after, cs', hspace, hkey, hcolon, hitem, hend⟩ :=
      ih depth v hv (.cons (by decide) _)
    obtain ⟨fuel, rfl⟩ := h.exists_fuel hfuel
    exact ⟨inside, hspace, readMemberEntries_ok hkey hcolon hitem (readMembers_end hend fuel false)⟩
  | nextMember h _ ih ih' =>
    intro depth _ hps fuel hfuel
    obtain ⟨⟨key, v⟩, ps, ⟨rfl, hv⟩, hrestps, rfl⟩ := List.forall₂_cons_left_iff.1 hps
    obtain ⟨inside, behind, after, cs', hspace, hkey, hcolon, hitem, hcomma⟩ :=
      ih depth v hv (.cons (by decide) _)
    obtain ⟨fuel, rfl⟩ := h.exists_fuel hfuel
    have hlength := h.length_lt
    obtain ⟨inside', hspace', hentries⟩ :=
      ih' depth ps hrestps fuel (by simp only [List.length_cons] at hlength; omega)
    refine ⟨inside, hspace, readMemberEntries_ok hkey hcolon hitem ?_⟩
    exact (readMembers_next hcomma hspace' fuel).trans hentries

/-- A text is read as the value that it spells. -/
theorem parse_of_isSpelling {v : Json} {cs : List Char} (h : IsSpelling v cs) :
    parse cs = .ok v := by
  obtain ⟨t, htext, hv⟩ := h
  obtain ⟨cs', hread, hblank⟩ := htext.read depthLimit v hv .nil
  have hend : expectEnd cs' = .ok () := by rw [expectEnd, hblank.skipSpace]; rfl
  rw [parse, hread]
  show (expectEnd cs' >>= _) = _
  rw [hend]
  rfl

end AppShell.Json
