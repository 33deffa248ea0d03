/-
AppShell/Proofs/Json/Values.lean

The value of what a text says.

A tree of the grammar has a value unless it nests too deep or holds a number that
is too large for a double (`Tree.value?`).  The members of an object are sorted
by key, and of a repeated key the last value stays: these two facts determine the
object (`Tree.value?_obj_eq_some_iff`), since members with increasing keys are
equal if every key has the same value in both (`Members.Increasing.ext`).

What a text says (`Tree.Says`) does not depend on what a repeated key hides.  It has
a value only if that could be read too, and then the value is what it says.

`IsSpelling v cs` says that a text is one of the ways to write a value.
-/
import Mathlib.Data.List.Forall2
import Mathlib.Data.List.Induction
import Mathlib.Data.List.Sort
import Mathlib.Data.String.Basic
import AppShell.Proofs.Json.Grammar

namespace AppShell.Json

/-! ### Items and members as lists -/

theorem Items.ofList_toList : ∀ items : Items, Items.ofList items.toList = items
  | .nil => rfl
  | .cons v rest => by rw [toList, ofList, ofList_toList rest]

namespace Members

/-- Whether the keys increase from member to member. -/
def Increasing (ms : Members) : Prop :=
  ms.toList.Pairwise fun a b => a.1 < b.1

/-- An object is known by the list of its members. -/
theorem toList_injective : ∀ {ms ms' : Members}, ms.toList = ms'.toList → ms = ms'
  | .nil, .nil, _ => rfl
  | .cons _ _ rest, .cons _ _ rest', h => by
    simp only [toList, List.cons.injEq, Prod.mk.injEq] at h
    obtain ⟨⟨rfl, rfl⟩, hrest⟩ := h
    rw [toList_injective hrest]

/-- A member is looked up as in a list of pairs. -/
theorem get?_eq_lookup (key : String) : ∀ ms : Members, ms.get? key = ms.toList.lookup key
  | .nil => rfl
  | .cons k v rest => by
    rw [get?, toList, List.lookup_cons, get?_eq_lookup key rest]
    by_cases hk : k = key
    · rw [if_pos hk, beq_iff_eq.2 hk.symm]
    · rw [if_neg hk, beq_eq_false_iff_ne.2 (Ne.symm hk)]

/-- What is in an object after an insertion is the new member or was there before. -/
theorem mem_of_mem_insert {key : String} {value : Json} {p : String × Json} :
    ∀ {ms : Members}, p ∈ (ms.insert key value).toList → p = (key, value) ∨ p ∈ ms.toList
  | .nil, h => .inl (List.mem_singleton.1 h)
  | .cons k v rest, h => by
    rw [insert] at h
    split at h
    · exact List.mem_cons.1 h
    · split at h
      · exact (List.mem_cons.1 h).imp_right (List.mem_cons_of_mem _)
      · rcases List.mem_cons.1 h with rfl | h
        · exact .inr List.mem_cons_self
        · exact (mem_of_mem_insert h).imp_right (List.mem_cons_of_mem _)

/-- A member is put at its place. -/
theorem Increasing.insert (key : String) (value : Json) :
    ∀ {ms : Members}, ms.Increasing → (ms.insert key value).Increasing
  | .nil, _ => List.pairwise_singleton _ _
  | .cons k v rest, h => by
    obtain ⟨hfirst, hrest⟩ := List.pairwise_cons.1 h
    rw [Members.insert]
    split
    · next hlt =>
      refine List.pairwise_cons.2 ⟨fun p hp => ?_, h⟩
      rcases List.mem_cons.1 hp with rfl | hp
      · exact hlt
      · exact lt_trans hlt (hfirst p hp)
    · next hnot =>
      split
      · next heq =>
        subst heq
        exact List.pairwise_cons.2 ⟨hfirst, hrest⟩
      · next hne =>
        have hlt : k < key := lt_of_le_of_ne (not_lt.1 hnot) (Ne.symm hne)
        refine List.pairwise_cons.2 ⟨fun p hp => ?_, Increasing.insert key value hrest⟩
        rcases mem_of_mem_insert hp with rfl | hp
        · exact hlt
        · exact hfirst p hp

/-- The last member read is the one inserted last. -/
theorem collect_concat (ps : List (String × Json)) (p : String × Json) :
    collect (ps ++ [p]) = (collect ps).insert p.1 p.2 :=
  List.foldl_concat ..

/-- The members of an object that was read stand in the order of their names. -/
theorem increasing_collect (ps : List (String × Json)) : (collect ps).Increasing := by
  induction ps using List.reverseRecOn with
  | nil => exact List.Pairwise.nil
  | append_singleton ps p ih =>
    rw [collect_concat]
    exact ih.insert p.1 p.2

/-- Of a repeated key the last value stays. -/
theorem get?_collect (key : String) (ps : List (String × Json)) :
    (collect ps).get? key = ps.reverse.lookup key := by
  induction ps using List.reverseRecOn with
  | nil => rfl
  | append_singleton ps p ih =>
    rw [collect_concat, List.reverse_concat, List.lookup_cons]
    by_cases hk : key = p.1
    · rw [beq_iff_eq.2 hk, hk, get?_insert_self]
    · rw [beq_eq_false_iff_ne.2 hk, get?_insert_of_ne hk, ih]

/-- Where no key is repeated, the members are what the keys lead to. -/
theorem lookup_eq_some_iff_mem {ps : List (String × Json)}
    (h : ps.Pairwise fun a b => a.1 ≠ b.1) {key : String} {v : Json} :
    ps.lookup key = some v ↔ (key, v) ∈ ps := by
  constructor
  · intro hlookup
    obtain ⟨before, behind, rfl, -⟩ := List.lookup_eq_some_iff.1 hlookup
    exact List.mem_append_right _ List.mem_cons_self
  · intro hmem
    obtain ⟨before, behind, rfl⟩ := List.append_of_mem hmem
    refine List.lookup_eq_some_iff.2 ⟨before, behind, rfl, fun p hp => ?_⟩
    exact bne_iff_ne.2 ((List.pairwise_append.1 h).2.2 p hp _ List.mem_cons_self).symm

/-- Members in increasing order have distinct names. -/
theorem Increasing.distinct {ms : Members} (h : ms.Increasing) :
    ms.toList.Pairwise fun a b => a.1 ≠ b.1 :=
  h.imp fun hlt => ne_of_lt hlt

/-- In an object that was read, a name has the value that stands under it. -/
theorem Increasing.get?_eq_some_iff {ms : Members} (h : ms.Increasing) {key : String} {v : Json} :
    ms.get? key = some v ↔ (key, v) ∈ ms.toList := by
  rw [get?_eq_lookup, lookup_eq_some_iff_mem h.distinct]

/-- Under increasing keys the last value of a key is its only one. -/
theorem Increasing.lookup_reverse {ms : Members} (h : ms.Increasing) (key : String) :
    ms.toList.reverse.lookup key = ms.get? key := by
  have hreverse : ms.toList.reverse.Pairwise fun a b => a.1 ≠ b.1 :=
    List.pairwise_reverse.2 (h.distinct.imp Ne.symm)
  ext v
  rw [lookup_eq_some_iff_mem hreverse, List.mem_reverse, h.get?_eq_some_iff]

/-- Members with increasing keys are equal if every key has the same value in both. -/
theorem Increasing.ext {ms ms' : Members} (h : ms.Increasing) (h' : ms'.Increasing)
    (hget : ∀ key, ms.get? key = ms'.get? key) : ms = ms' := by
  have : Std.Irrefl fun a b : String × Json => a.1 < b.1 := ⟨fun a => lt_irrefl a.1⟩
  have : Std.Antisymm fun a b : String × Json => a.1 < b.1 :=
    ⟨fun a b hab hba => absurd (lt_trans hab hba) (lt_irrefl a.1)⟩
  refine toList_injective (List.Pairwise.eq_of_mem_iff h h' fun p => ?_)
  rw [← h.get?_eq_some_iff, ← h'.get?_eq_some_iff, hget]

end Members

/-! ### Values of trees -/

/-- A list is mapped when each of its elements is. -/
theorem mapM_eq_some_iff {α β : Type} {f : α → Option β} {xs : List α} {ys : List β} :
    xs.mapM f = some ys ↔ List.Forall₂ (fun x y => f x = some y) xs ys := by
  induction xs generalizing ys with
  | nil => simp [eq_comm]
  | cons x xs ih =>
    rw [List.mapM_cons, List.forall₂_cons_left_iff]
    constructor
    · intro h
      obtain ⟨y, hy, h⟩ := Option.bind_eq_some_iff.1 h
      obtain ⟨zs, hzs, h⟩ := Option.bind_eq_some_iff.1 h
      exact ⟨y, zs, hy, ih.1 hzs, (Option.some.inj h).symm⟩
    · rintro ⟨y, zs, hy, hzs, rfl⟩
      rw [hy, ih.2 hzs]
      rfl

namespace Tree

/-- The value of a tree that nests at most `depth` deep; none if it nests deeper, or if one of its
numbers is too large. -/
def value? : Nat → Tree → Option Json
  | _, .null => some .null
  | _, .bool b => some (.bool b)
  | _, .number n => n.value.toOption
  | _, .str s => some (.str s)
  | 0, .arr _ => none
  | 0, .obj _ => none
  | depth + 1, .arr items =>
    (items.mapM (value? depth)).map fun vs => .arr (Items.ofList vs)
  | depth + 1, .obj members =>
    (members.mapM fun m => (value? depth m.2).map fun v => (m.1, v)).map fun ps =>
      .obj (Members.collect ps)

/-- A member of a tree and a member of its value. -/
def Entry (depth : Nat) (m : String × Tree) (p : String × Json) : Prop :=
  m.1 = p.1 ∧ m.2.value? depth = some p.2

variable {depth : Nat} {v : Json}

theorem value?_str (depth : Nat) (s : String) : (str s).value? depth = some (.str s) := by
  cases depth <;> rfl

/-- A number has the value of its literal, if that is not too large. -/
theorem value?_number_eq_some_iff {n : Literal} :
    (number n).value? depth = some v ↔ n.value = .ok v := by
  have hvalue : (number n).value? depth = n.value.toOption := by cases depth <;> rfl
  rw [hvalue]
  cases n.value <;> simp [Except.toOption]

/-- A list has a value when each item has one a level further down. -/
theorem value?_arr_eq_some_iff {ts : List Tree} :
    (arr ts).value? (depth + 1) = some v ↔
      ∃ vs, List.Forall₂ (fun t v => t.value? depth = some v) ts vs ∧
        .arr (Items.ofList vs) = v := by
  simp only [value?, Option.map_eq_some_iff, mapM_eq_some_iff]

/-- An object has a value when each member has one a level further down. -/
theorem value?_obj_eq_some {ms : List (String × Tree)} :
    (obj ms).value? (depth + 1) = some v ↔
      ∃ ps, List.Forall₂ (Entry depth) ms ps ∧ .obj (Members.collect ps) = v := by
  have hentry : ∀ (m : String × Tree) (p : String × Json),
      ((m.2.value? depth).map fun v => (m.1, v)) = some p ↔ Entry depth m p := by
    rintro m ⟨key, w⟩
    simp only [Entry, Option.map_eq_some_iff, Prod.mk.injEq]
    constructor
    · rintro ⟨v, hv, hkey, rfl⟩
      exact ⟨hkey, hv⟩
    · rintro ⟨hkey, hv⟩
      exact ⟨w, hv, hkey, rfl⟩
  simp only [value?, Option.map_eq_some_iff, mapM_eq_some_iff, hentry]

/-- The last value under a key. -/
def last? (key : String) (ms : List (String × Tree)) : Option Tree :=
  ms.reverse.lookup key

/-- A member is looked up among the values as among what they are spelled from. -/
theorem lookup_entries {ms : List (String × Tree)} {ps : List (String × Json)}
    (h : List.Forall₂ (Entry depth) ms ps) (key : String) :
    ps.lookup key = (ms.lookup key).bind (value? depth) := by
  induction h with
  | nil => rfl
  | @cons m p ms ps hentry _ ih =>
    obtain ⟨hkey, hvalue⟩ := hentry
    rw [List.lookup_cons, List.lookup_cons, ← hkey]
    cases key == m.1 with
    | true => exact hvalue.symm
    | false => exact ih

/-- Members that all have values make up entries. -/
theorem exists_entries {ms : List (String × Tree)}
    (h : ∀ m ∈ ms, ∃ v, m.2.value? depth = some v) :
    ∃ ps, List.Forall₂ (Entry depth) ms ps := by
  induction ms with
  | nil => exact ⟨[], .nil⟩
  | cons m ms ih =>
    obtain ⟨v, hv⟩ := h m List.mem_cons_self
    obtain ⟨ps, hps⟩ := ih fun m hm => h m (List.mem_cons_of_mem _ hm)
    exact ⟨(m.1, v) :: ps, .cons ⟨rfl, hv⟩ hps⟩

/-- Each member of the entries has a value. -/
theorem exists_value_of_entries {ms : List (String × Tree)} {ps : List (String × Json)}
    (h : List.Forall₂ (Entry depth) ms ps) : ∀ m ∈ ms, ∃ v, m.2.value? depth = some v := by
  induction h with
  | nil =>
    rintro m ⟨⟩
  | cons hentry _ ih =>
    intro m hm
    rcases List.mem_cons.1 hm with rfl | hm
    · exact ⟨_, hentry.2⟩
    · exact ih m hm

/-- The members of an object have increasing keys, whatever stands under a key has a value, and the
last one is the one that stays. -/
theorem value?_obj_eq_some_iff {ms : List (String × Tree)} {members : Members} :
    (obj ms).value? (depth + 1) = some (.obj members) ↔
      members.Increasing ∧ (∀ m ∈ ms, ∃ v, m.2.value? depth = some v) ∧
        ∀ key, members.get? key = (last? key ms).bind (value? depth) := by
  have hget : ∀ {ps}, List.Forall₂ (Entry depth) ms ps → ∀ key,
      (Members.collect ps).get? key = (last? key ms).bind (value? depth) := fun h key => by
    rw [Members.get?_collect, last?, lookup_entries (List.forall₂_reverse_iff.2 h)]
  rw [value?_obj_eq_some]
  constructor
  · rintro ⟨ps, hps, heq⟩
    cases heq
    exact ⟨Members.increasing_collect ps, exists_value_of_entries hps, hget hps⟩
  · rintro ⟨hincreasing, hvalues, hmembers⟩
    obtain ⟨ps, hps⟩ := exists_entries hvalues
    refine ⟨ps, hps, congrArg Json.obj ?_⟩
    exact (Members.increasing_collect ps).ext hincreasing fun key => by
      rw [hget hps, hmembers]

/-- What a text says: of the values under one key only the last counts, and whatever it hides may
be anything. -/
inductive Says : Tree → Json → Prop
  | null : Says .null .null
  | bool (b : Bool) : Says (.bool b) (.bool b)
  | number {n : Literal} {v : Json} : n.value = .ok v → Says (.number n) v
  | str (s : String) : Says (.str s) (.str s)
  | arr {ts : List Tree} {vs : List Json} :
      List.Forall₂ Says ts vs → Says (.arr ts) (.arr (Items.ofList vs))
  | obj {ms : List (String × Tree)} {members : Members} :
      members.Increasing → (∀ key, Option.Rel Says (last? key ms) (members.get? key)) →
      Says (.obj ms) (.obj members)

/-- The last member of a name is one of the members. -/
theorem mem_of_last?_eq_some {key : String} {ms : List (String × Tree)} {t : Tree}
    (h : last? key ms = some t) : (key, t) ∈ ms := by
  obtain ⟨before, behind, heq, -⟩ := List.lookup_eq_some_iff.1 h
  rw [← List.mem_reverse, heq]
  exact List.mem_append_right _ List.mem_cons_self

/-- What a text says is its value, if it has one. -/
theorem Says.eq_of_value? {t : Tree} {v w : Json} (h : t.Says v) {depth : Nat}
    (hw : t.value? depth = some w) : w = v := by
  induction depth generalizing t v w with
  | zero =>
    cases h with
    | null | bool | str => exact (Option.some.inj hw).symm
    | number hn => exact Except.ok.inj ((value?_number_eq_some_iff.1 hw).symm.trans hn)
    | arr | obj => cases hw
  | succ depth ih =>
    cases h with
    | null | bool | str => exact (Option.some.inj hw).symm
    | number hn => exact Except.ok.inj ((value?_number_eq_some_iff.1 hw).symm.trans hn)
    | @arr ts vs hts =>
      obtain ⟨ws, hws, rfl⟩ := value?_arr_eq_some_iff.1 hw
      have heq : ws = vs := by
        clear hw
        induction hts generalizing ws with
        | nil =>
          cases hws
          rfl
        | cons hsays _ ihs =>
          cases hws with
          | cons hvalue hrest => rw [ih hsays hvalue, ihs _ hrest]
      rw [heq]
    | @obj ms members hincreasing hlast =>
      obtain ⟨ps, -, rfl⟩ := value?_obj_eq_some.1 hw
      obtain ⟨hincreasing', hvalues, hget⟩ := value?_obj_eq_some_iff.1 hw
      refine congrArg Json.obj (hincreasing'.ext hincreasing fun key => ?_)
      have hrel := hlast key
      rw [hget]
      -- the last value under a key is one of those that all have a value
      generalize members.get? key = shown at hrel
      cases hl : last? key ms with
      | none =>
        rw [hl] at hrel
        cases hrel
        rfl
      | some t =>
        rw [hl] at hrel
        obtain ⟨v, hv⟩ := hvalues _ (mem_of_last?_eq_some hl)
        cases hrel with
        | some hsays => rw [Option.bind_some, hv, ih hsays hv]

/-- The value of a tree is what the text says. -/
theorem says_of_value? {t : Tree} {v : Json} {depth : Nat} (h : t.value? depth = some v) :
    t.Says v := by
  -- the induction is on the depth: what is nested in a value has one a level further down
  induction depth generalizing t v with
  | zero =>
    cases t with
    | null => cases h; exact .null
    | bool b => cases h; exact .bool b
    | str s => cases h; exact .str s
    | number n => exact .number (value?_number_eq_some_iff.1 h)
    | arr | obj => cases h
  | succ depth ih =>
    cases t with
    | null => cases h; exact .null
    | bool b => cases h; exact .bool b
    | str s => cases h; exact .str s
    | number n => exact .number (value?_number_eq_some_iff.1 h)
    | arr ts =>
      obtain ⟨vs, hvs, rfl⟩ := value?_arr_eq_some_iff.1 h
      exact .arr (hvs.imp fun _ _ => ih)
    | obj ms =>
      obtain ⟨ps, -, rfl⟩ := value?_obj_eq_some.1 h
      -- what stands under a name is the value of the last member of this name
      obtain ⟨hincreasing, hvalues, hget⟩ := value?_obj_eq_some_iff.1 h
      refine .obj hincreasing fun key => ?_
      rw [hget]
      cases hl : last? key ms with
      | none => exact .none
      | some t =>
        obtain ⟨v, hv⟩ := hvalues _ (mem_of_last?_eq_some hl)
        rw [Option.bind_some, hv]
        exact .some (ih hv)

end Tree

/-- A text is one of the ways to write a value: blanks, escapes and the order of members make no
difference, nor does what a repeated key hides, as long as it has a value of its own. -/
def IsSpelling (v : Json) (cs : List Char) : Prop :=
  ∃ t, IsText t cs ∧ t.value? depthLimit = some v

end AppShell.Json
