/-
AppShell/Proofs/Json/Printing.lean

What is written on several lines spells the value.

A value whose numbers are integers of 64 bits is exact: its text is one of its
spellings, so it is read back as it was.  The digits of an integer spell it, since
they do not begin with a zero unless there is no other (`Whole.toDigits`), and
with its sign their number is the integer again (`Literal.value_ofInt`).  Lines and
indentation are blanks, which may stand around every entry.

Values hold items and members in spines, so what is written for the three is
followed by one recursion over all of them (`exists_written`).

The main statement is `isSpelling_pretty`.
-/
import AppShell.Json.Printer
import AppShell.Proofs.Json.Integers
import AppShell.Proofs.Json.Reading

namespace AppShell.Json

/-! ### Integers -/

/-- The parts of an integer as it is written. -/
def Literal.ofInt (i : Int) : Literal :=
  ⟨decide (i < 0), Nat.toDigits 10 i.natAbs, [], none⟩

/-- A number begins with a zero only if it is zero. -/
theorem head_toDigits_ne {n : Nat} (h : 0 < n) : ∃ d ds, Nat.toDigits 10 n = d :: ds ∧ d ≠ '0' := by
  induction n using Nat.strongRecOn with
  | ind n ih =>
    by_cases hlt : n < 10
    · have hdigit : ∀ k : Fin 10, 0 < k.val → Nat.digitChar k ≠ '0' := by decide
      exact ⟨_, [], Nat.toDigits_of_lt_base hlt, hdigit ⟨n, hlt⟩ h⟩
    · obtain ⟨d, ds, hds, hd⟩ := ih (n / 10) (by omega) (by omega)
      refine ⟨d, ds ++ [Nat.digitChar (n % 10)], ?_, hd⟩
      rw [Nat.toDigits_of_base_le (by decide) (Nat.not_lt.1 hlt), hds, List.cons_append]

theorem digits_toDigits (n : Nat) (rest : List Char) :
    Digits (Nat.toDigits 10 n) (Nat.toDigits 10 n ++ rest) rest :=
  ⟨rfl, fun _ => Nat.isDigit_of_mem_toDigits (by decide) (by decide), Nat.toDigits_ne_nil⟩

theorem Whole.toDigits (n : Nat) (rest : List Char) :
    Whole (Nat.toDigits 10 n) (Nat.toDigits 10 n ++ rest) rest := by
  rcases Nat.eq_zero_or_pos n with rfl | hpos
  · exact .zero rest
  · obtain ⟨d, ds, hds, hd⟩ := head_toDigits_ne hpos
    have hdigits := digits_toDigits n rest
    rw [hds] at hdigits ⊢
    exact .digits hd hdigits

theorem numeral_writeInt (i : Int) (rest : List Char) :
    Numeral (.ofInt i) (writeInt i ++ rest) rest := by
  have hmagnitude : Magnitude (.ofInt i) (Nat.toDigits 10 i.natAbs ++ rest) rest :=
    .parts (.toDigits _ _) (.none _) (.none _)
  rw [writeInt]
  by_cases hneg : i < 0
  · rw [if_pos hneg]
    exact .minus (decide_eq_true hneg) hmagnitude
  · rw [if_neg hneg]
    exact .plain (decide_eq_false hneg) hmagnitude

/-- An integer of 64 bits is the value of its digits. -/
theorem Literal.value_ofInt {i : Int} (h : -0x8000000000000000 ≤ i ∧ i < 0x10000000000000000) :
    (Literal.ofInt i).value = .ok (.int i) := by
  have hwhole : (Literal.ofInt i).signedWhole = if i < 0 then -(i.natAbs : Int) else i.natAbs := by
    simp only [signedWhole, ofInt, decide_eq_true_eq, Nat.ofDigitChars_ten_toDigits]
  refine value_eq_int_iff.2 ⟨rfl, rfl, ?_, fun hneg => of_decide_eq_true hneg, h⟩
  rw [hwhole]
  split <;> omega

/-! ### Values without doubles -/

mutual
/-- Whether all numbers are integers of 64 bits and every object has its keys in order. -/
def Exact : Json → Prop
  | .int i => -0x8000000000000000 ≤ i ∧ i < 0x10000000000000000
  | .double _ => False
  | .arr items => items.Exact
  | .obj members => members.Increasing ∧ members.Exact
  | _ => True
/-- Whether every item is exact. -/
def Items.Exact : Items → Prop
  | .nil => True
  | .cons v rest => v.Exact ∧ rest.Exact
/-- Whether the value of every member is exact. -/
def Members.Exact : Members → Prop
  | .nil => True
  | .cons _ v rest => v.Exact ∧ rest.Exact
end

mutual
/-- How deep arrays and objects are nested in a value. -/
def nesting : Json → Nat
  | .arr items => items.nesting + 1
  | .obj members => members.nesting + 1
  | _ => 0
/-- How deep the deepest item is nested. -/
def Items.nesting : Items → Nat
  | .nil => 0
  | .cons v rest => max v.nesting rest.nesting
/-- How deep the deepest member is nested. -/
def Members.nesting : Members → Nat
  | .nil => 0
  | .cons _ v rest => max v.nesting rest.nesting
end

/-! ### Lines -/

theorem Spaces.newline (level : Nat) (rest : List Char) : Spaces (newline level ++ rest) rest := by
  have hblanks : ∀ n, Spaces (List.replicate n ' ' ++ rest) rest := by
    intro n
    induction n with
    | zero => exact .none rest
    | succ n ih => exact .blank rfl ih
  show Spaces ('\n' :: (List.replicate (2 * level) ' ' ++ rest)) rest
  exact .blank rfl (hblanks (2 * level))

/-- A member on a line of its own. -/
theorem Spells.pretty_member (level : Nat) (key : String) {t : Tree} {text cs rest : List Char}
    (h : Spells (.value t) (text ++ cs) cs) (hblank : Spaces cs rest) :
    Spells (.member key t)
      (newline level ++ (writeString key ++ ':' :: ' ' :: (text ++ cs))) rest := by
  have hspace : Spaces (' ' :: (text ++ cs)) (text ++ cs) := .blank rfl (.none _)
  have hmember := Spells.member (Spaces.newline level _) (.written key.toList _) (.none _)
    (.item hspace h hblank)
  rw [String.ofList_toList] at hmember
  simpa [writeString] using hmember

/-! ### Values -/

mutual
/-- What is written for a value spells a tree that has the value. -/
theorem exists_written (depth : Nat) : ∀ {v : Json}, v.Exact → v.nesting ≤ depth →
    ∃ t : Tree, t.value? depth = some v ∧
      ∀ level rest, Spells (.value t) (writePretty level v ++ rest) rest
  | .null, _, _ => by
    refine ⟨.null, ?_, fun _ rest => .null rest⟩
    cases depth <;> rfl
  | .bool b, _, _ => by
    refine ⟨.bool b, by cases depth <;> rfl, fun _ rest => ?_⟩
    cases b with
    | true => exact .boolTrue rest
    | false => exact .boolFalse rest
  | .double _, h, _ => h.elim
  | .int i, h, _ =>
    ⟨.number (.ofInt i), Tree.value?_number_eq_some_iff.2 (Literal.value_ofInt h),
      fun _ rest => .number (numeral_writeInt i rest)⟩
  | .str s, _, _ => ⟨.str s, Tree.value?_str depth s, fun _ rest => .written_str s rest⟩
  | .arr items, h, hdepth => by
    cases depth with
    | zero => exact absurd hdepth (Nat.not_succ_le_zero _)
    | succ depth =>
      have hitems : items.Exact := h
      obtain ⟨ts, hts, hspells⟩ :=
        exists_writtenItems depth hitems (Nat.le_of_succ_le_succ hdepth)
      refine ⟨.arr ts, Tree.value?_arr_eq_some_iff.2 ⟨_, hts, ?_⟩, fun level rest => ?_⟩
      · rw [items.ofList_toList]
      · -- what stands in an array of one item or more is written on lines of its own
        cases items with
        | nil =>
          cases hts
          exact .emptyList (.none _)
        | cons v items =>
          have hitems := hspells (level + 1) nofun (.newline level (']' :: rest))
          simpa [writePretty] using Spells.list hitems
  | .obj members, h, hdepth => by
    cases depth with
    | zero => exact absurd hdepth (Nat.not_succ_le_zero _)
    | succ depth =>
      have hmembers : members.Exact := h.2
      obtain ⟨ts, hts, hspells⟩ :=
        exists_writtenMembers depth hmembers (Nat.le_of_succ_le_succ hdepth)
      refine ⟨.obj ts, Tree.value?_obj_eq_some_iff.2 ⟨h.1, Tree.exists_value_of_entries hts,
        fun key => ?_⟩, fun level rest => ?_⟩
      · -- the members are sorted, so that the last one of a name is its only one
        rw [Tree.last?, ← Tree.lookup_entries (List.forall₂_reverse_iff.2 hts),
          h.1.lookup_reverse]
      · cases members with
        | nil =>
          cases hts
          exact .emptyObject (.none _)
        | cons key v members =>
          have hmembers := hspells (level + 1) nofun (.newline level ('}' :: rest))
          simpa [writePretty] using Spells.object hmembers
/-- What is written for items spells trees that have the items for values. -/
theorem exists_writtenItems (depth : Nat) : ∀ {items : Items}, items.Exact →
    items.nesting ≤ depth →
    ∃ ts : List Tree, List.Forall₂ (fun t v => t.value? depth = some v) ts items.toList ∧
      ∀ level {cs rest}, items ≠ .nil → Spaces cs (']' :: rest) →
        Spells (.items ts) (prettyItems level items ++ cs) rest
  | .nil, _, _ => ⟨[], .nil, fun _ _ _ hne => absurd rfl hne⟩
  | .cons v items, h, hdepth => by
    obtain ⟨t, ht, hspells⟩ :=
      exists_written depth h.1 (Nat.le_trans (Nat.le_max_left _ _) hdepth)
    obtain ⟨ts, hts, hrest⟩ :=
      exists_writtenItems depth h.2 (Nat.le_trans (Nat.le_max_right _ _) hdepth)
    refine ⟨t :: ts, .cons ht hts, fun level cs behind _ hend => ?_⟩
    cases items with
    | nil =>
      cases hts
      have hitem := Spells.item (Spaces.newline level _) (hspells level cs) hend
      simpa [prettyItems] using Spells.lastItem hitem
    | cons w items =>
      have hitems := Spells.nextItem
        (.item (.newline level _) (hspells level _) (.none _)) (hrest level nofun hend)
      simpa [prettyItems] using hitems
/-- What is written for members spells trees that have the members for values. -/
theorem exists_writtenMembers (depth : Nat) : ∀ {members : Members}, members.Exact →
    members.nesting ≤ depth →
    ∃ ts : List (String × Tree), List.Forall₂ (Tree.Entry depth) ts members.toList ∧
      ∀ level {cs rest}, members ≠ .nil → Spaces cs ('}' :: rest) →
        Spells (.members ts) (prettyMembers level members ++ cs) rest
  | .nil, _, _ => ⟨[], .nil, fun _ _ _ hne => absurd rfl hne⟩
  | .cons key v members, h, hdepth => by
    obtain ⟨t, ht, hspells⟩ :=
      exists_written depth h.1 (Nat.le_trans (Nat.le_max_left _ _) hdepth)
    obtain ⟨ts, hts, hrest⟩ :=
      exists_writtenMembers depth h.2 (Nat.le_trans (Nat.le_max_right _ _) hdepth)
    refine ⟨(key, t) :: ts, .cons ⟨rfl, ht⟩ hts, fun level cs behind _ hend => ?_⟩
    cases members with
    | nil =>
      cases hts
      have hmember := Spells.pretty_member level key (hspells level cs) hend
      simpa [prettyMembers] using Spells.lastMember hmember
    | cons key' w members =>
      have hmembers := Spells.nextMember
        (Spells.pretty_member level key (hspells level _) (.none _))
        (hrest level nofun hend)
      simpa [prettyMembers] using hmembers
end

/-- What is written on several lines for an exact value is one of its spellings. -/
theorem isSpelling_pretty {v : Json} (h : v.Exact) (hnesting : v.nesting ≤ depthLimit) :
    IsSpelling v v.pretty.toList := by
  obtain ⟨t, hvalue, hspells⟩ := exists_written depthLimit h hnesting
  have htext := hspells 0 []
  rw [List.append_nil] at htext
  refine ⟨t, ?_, hvalue⟩
  rw [pretty, String.toList_ofList]
  exact .item (.none _) htext (.none _)

end AppShell.Json
