/-
AppShell/Proofs/Preferences/Decoding.lean

What a stored object decodes to.

A text of the grammar says a list of members (`Tree`), and what is decoded is a
function of this list alone: `decoded?` looks at the values under each of the
three keys, which must be at most one.  The reader goes through the members one
by one and keeps what it has seen; `Seen.addAll?_eq` splits this fold into one
for each key, so that neither the order of the members nor those with other keys
matter.  The main statement is `decode_object`.
-/
import AppShell.Preferences.Decode
import AppShell.Proofs.Json.Skipping

namespace AppShell.Preferences

open Json

variable {α β γ : Type} [Tagged α]

/-! ### What the members say -/

/-- The values under a key, in their order. -/
def valuesOf (key : String) (ms : List (String × Tree)) : List Tree :=
  (ms.filter fun m => m.1 == key).map Prod.snd

/-- The choice that an object names by its only key. -/
def named? : List (String × Tree) → Option α
  | [(tag, .null)] => Tagged.ofTag? tag
  | _ => none

/-- The choice of a value, none for null; other values are refused. -/
def choice? : Tree → Option (Option α)
  | .null => some none
  | .str tag => (Tagged.ofTag? tag).map some
  | .obj ms => (named? ms).map some
  | _ => none

/-- The choice that the values under one key leave; more than one value is refused. -/
def settle? : List Tree → Option (Option α)
  | [] => some none
  | [v] => choice? v
  | _ => none

/-- The settings that the members of an object say. -/
def decoded? (ms : List (String × Tree)) : Option Preferences := do
  let dateFormat ← settle? (valuesOf "dateFormat" ms)
  let colorScheme ← settle? (valuesOf "colorScheme" ms)
  let uiDensity ← settle? (valuesOf "uiDensity" ms)
  return ofPatch ⟨dateFormat, colorScheme, uiDensity⟩

/-! ### Reading up to blanks -/

/-- A reader finds what it should, with nothing but blanks left before `rest`, or fails. -/
def Reads (r : Except Fault (β × List Char)) (found : Option β) (rest : List Char) : Prop :=
  match found with
  | some b => ∃ cs, r = .ok (b, cs) ∧ Spaces cs rest
  | none => ∃ f, r = .error f

namespace Reads

variable {cs rest rest' : List Char} {r : Except Fault (β × List Char)} {found : Option β}

theorem ok {b : β} (h : Spaces cs rest) : Reads (.ok (b, cs)) (some b) rest := ⟨cs, rfl, h⟩

theorem error (f : Fault) : Reads (β := β) (.error f) none rest := ⟨f, rfl⟩

theorem map (h : Reads r found rest) (g : β → γ) :
    Reads (r.map fun p => (g p.1, p.2)) (found.map g) rest := by
  cases found with
  | none =>
    obtain ⟨f, rfl⟩ := h
    exact .error f
  | some b =>
    obtain ⟨cs, rfl, hcs⟩ := h
    exact .ok hcs

/-- More blanks may be left than the reader has seen. -/
theorem spaces (h : Reads r found rest) (hrest : Spaces rest rest') : Reads r found rest' := by
  cases found with
  | none => exact h
  | some b =>
    obtain ⟨cs, rfl, hcs⟩ := h
    exact .ok (hcs.trans hrest)

/-- Two readers in a row find what both find, the second one behind the blanks that the first one
left. -/
theorem bind {k : β × List Char → Except Fault (γ × List Char)} {g : β → Option γ}
    (h : Reads r found rest) (hk : ∀ b cs, Spaces cs rest → Reads (k (b, cs)) (g b) rest') :
    Reads (r >>= k) (found.bind g) rest' := by
  cases found with
  | none =>
    obtain ⟨f, rfl⟩ := h
    exact .error f
  | some b =>
    obtain ⟨cs, rfl, hcs⟩ := h
    exact hk b cs hcs

end Reads

/-! ### One choice -/

section Choice

variable {v : Tree} {cs rest : List Char}

/-- A member whose key is no tag names no choice, whatever its value is. -/
theorem named?_of_tag {tag : String} (h : (Tagged.ofTag? tag : Option α) = none) (v : Tree) :
    named? (α := α) [(tag, v)] = none := by
  cases v with
  | null => exact h
  | _ => rfl

/-- A member names a choice only with null for its value. -/
theorem named?_of_value {v : Tree} (h : v ≠ .null) (tag : String) :
    named? (α := α) [(tag, v)] = none := by
  cases v with
  | null => exact absurd rfl h
  | _ => rfl

/-- More than one member names no choice. -/
theorem named?_of_two (m m' : String × Tree) (ms : List (String × Tree)) :
    named? (α := α) (m :: m' :: ms) = none := by
  obtain ⟨key, v⟩ := m
  cases v <;> rfl

/-- An object names a choice if its first member maps a tag to null and the brace follows. -/
theorem readNamed_member {key : String} {c : Char}
    (h : Spells (.member key v) cs (c :: rest)) (hc : c = '}' ∨ c = ',') :
    Reads (readNamed cs) (if c = '}' then named? [(key, v)] else none : Option α) rest := by
  cases h with
  | member hbefore hkey hbehind h =>
  cases h with
  | item hblank hv hend =>
  rw [readNamed, hbefore.skipSpace_eq rfl]
  show Reads (readText _ >>= _) _ _
  rw [hkey.readText]
  show Reads (choose _ _ >>= _) _ _
  rw [choose]
  -- the name of the member is judged before its value is looked at
  cases htag : (Tagged.ofTag? (String.ofList _) : Option α) with
  | none =>
    rw [named?_of_tag htag, ite_self]
    exact .error _
  | some a =>
    show Reads (expectColon _ >>= _) _ _
    rw [expectColon, hbehind.skipSpace_eq rfl]
    by_cases hnull : v = .null
    · subst hnull
      cases hv
      simp only [bind, Except.bind, hblank.skipSpace_eq (c := 'n') rfl, expectWord, if_true]
      rcases hc with rfl | rfl
      · rw [hend.skipSpace_eq rfl, if_pos rfl, named?, htag]
        exact .ok (.none _)
      · rw [hend.skipSpace_eq rfl, if_neg (by decide)]
        exact .error _
    · -- a value that is not null is refused at its first letter
      rw [named?_of_value hnull, ite_self]
      obtain ⟨d, ds, rfl, hd⟩ := hv.exists_head
      simp only [bind, Except.bind, hblank.skipSpace_eq hd.ne.1]
      split
      · next he => cases he
      · next he =>
        cases he
        exact absurd hd.eq_null hnull
      · exact .error _

/-- The members of an object are read as the choice that they name, or refused if they name none. -/
theorem readNamed_members {ms : List (String × Tree)} (h : Spells (.members ms) cs rest) :
    Reads (readNamed cs) (named? ms : Option α) rest := by
  cases h with
  | lastMember h => exact readNamed_member h (.inl rfl)
  | nextMember h hmore =>
    obtain ⟨f, hf⟩ : Reads (readNamed cs) (none : Option α) _ := readNamed_member h (.inr rfl)
    -- a second member refuses what the first one has named
    cases hmore <;> (rw [named?_of_two]; exact ⟨f, hf⟩)

/-- A value is read as the choice that it stands for. -/
theorem readChoice_item (h : Spells (.item v) cs rest) :
    Reads (readChoice cs) (choice? v : Option (Option α)) rest := by
  cases h with
  | item hbefore hv hbehind =>
  obtain ⟨c, ds, rfl, hc⟩ := hv.exists_head
  rw [readChoice, hbefore.skipSpace_eq hc.ne.1]
  cases hv with
  | null => exact .ok hbehind
  | str hs =>
    show Reads (readText _ >>= _) _ _
    rw [hs.readText]
    show Reads (choose _ _ >>= _) (Option.map _ _) _
    rw [choose]
    cases Tagged.ofTag? (α := α) (String.ofList _) with
    | none => exact .error _
    | some a => exact .ok hbehind
  | emptyObject h =>
    show Reads ((readNamed _).map _) none _
    rw [readNamed, h.skipSpace_eq rfl]
    exact .error _
  | object h => exact ((readNamed_members h).map some).spaces hbehind
  | number =>
    split
    · next he => cases he
    iterate 3
      next he =>
        cases he
        rcases hc with hc | hc <;> cases hc
    · exact .error _
  | _ => exact .error _

end Choice

/-! ### Members -/

/-- What a value adds to a setting that may be seen once. -/
def once? (seen : Option (Option α)) (v : Tree) : Option (Option α) :=
  if seen.isSome then none else choice? v

/-- What a member adds to the settings that were seen. -/
def Seen.add? (seen : Seen) (key : String) (v : Tree) : Option Seen :=
  if key = "dateFormat" then
    (once? seen.dateFormat v).map fun c => { seen with dateFormat := some c }
  else if key = "colorScheme" then
    (once? seen.colorScheme v).map fun c => { seen with colorScheme := some c }
  else if key = "uiDensity" then
    (once? seen.uiDensity v).map fun c => { seen with uiDensity := some c }
  else some seen

/-- What the members of an object add to the settings that were seen. -/
def Seen.addAll? (seen : Seen) : List (String × Tree) → Option Seen
  | [] => some seen
  | (key, v) :: ms => (seen.add? key v).bind fun seen => seen.addAll? ms

section Members

variable {v : Tree} {cs cs' behind rest : List Char}

/-- Blanks may stand in front of a colon. -/
theorem expectColon_spaces (h : Spaces behind (':' :: cs)) : expectColon behind = .ok cs := by
  rw [expectColon, h.skipSpace_eq rfl]
  rfl

/-- A setting is read from its value, and refused if it was there before. -/
theorem readSetting_item (name : String) (seen : Option (Option α))
    (hbehind : Spaces behind (':' :: cs)) (h : Spells (.item v) cs rest) :
    Reads (readSetting name seen behind) (once? seen v) rest := by
  rw [readSetting, once?]
  cases seen with
  | some c => exact .error _
  | none =>
    show Reads (expectColon behind >>= _) _ _
    rw [expectColon_spaces hbehind]
    exact readChoice_item h

/-- A member adds to the settings what its value says; under any other key the value is passed
over. -/
theorem readMember_item (seen : Seen) (key : String) (hbehind : Spaces behind (':' :: cs))
    (h : Spells (.item v) cs rest) (hrest : Closed rest) :
    Reads (readMember seen key behind) (seen.add? key v) rest := by
  rw [readMember, Seen.add?]
  split
  · exact (readSetting_item key _ hbehind h).map _
  split
  · exact (readSetting_item key _ hbehind h).map _
  split
  · exact (readSetting_item key _ hbehind h).map _
  -- the value of any other key is passed over
  · obtain ⟨cs', hskip, hblank⟩ := skipValue_item h hrest
    rw [expectColon_spaces hbehind]
    show Reads (skipValue cs >>= _) _ _
    rw [hskip]
    exact .ok hblank

/-- The members are read from the front, whether or not a comma stands before them. -/
theorem readSettings_next (fuel : Nat) (seen : Seen) {inside : List Char}
    (h : Spaces cs (',' :: cs')) (hquote : skipSpace cs' = '"' :: inside) :
    readSettings (fuel + 1) false seen cs = readSettings (fuel + 1) true seen cs' := by
  rw [readSettings, readSettings, h.skipSpace_eq rfl, hquote]
  -- behind the comma the blanks are skipped once more
  conv =>
    lhs
    whnf
  rw [hquote]
  rfl

/-- The closing brace ends the settings. -/
theorem readSettings_end (fuel : Nat) (first : Bool) (seen : Seen) (h : Spaces cs ('}' :: rest)) :
    readSettings (fuel + 1) first seen cs = .ok (seen, rest) := by
  rw [readSettings, h.skipSpace_eq rfl]
  rfl

/-- Reading a member and then the others is reading both in a row. -/
theorem readSettings_member (fuel : Nat) (seen : Seen) {key : String}
    (h : Spells (.member key v) cs rest) (hrest : Closed rest) :
    ∃ r, Reads r (seen.add? key v) rest ∧
      readSettings (fuel + 1) true seen cs = r >>= fun p => readSettings fuel false p.1 p.2 := by
  cases h with
  | member hbefore hkey hbehind h =>
    refine ⟨_, readMember_item seen _ hbehind h hrest, ?_⟩
    rw [readSettings, hbefore.skipSpace_eq rfl]
    show (readText _ >>= _) = _
    rw [hkey.readText]
    rfl

/-- All members of an object are read, the settings as they are and the others as values of any
kind. -/
theorem readSettings_members {ms : List (String × Tree)} {fuel : Nat} (seen : Seen)
    (h : Spells (.members ms) cs rest) (hfuel : cs.length ≤ fuel) :
    Reads (readSettings (fuel + 1) true seen cs) (seen.addAll? ms) rest := by
  induction ms generalizing cs fuel seen with
  | nil => cases h
  | cons m ms ih =>
    cases h with
    | lastMember h =>
      obtain ⟨fuel, rfl⟩ := h.exists_fuel hfuel
      obtain ⟨r, hr, heq⟩ := readSettings_member (fuel + 1) seen h (.cons (by decide) _)
      rw [heq]
      refine hr.bind fun seen' cs' hend => ?_
      rw [readSettings_end fuel false seen' hend]
      exact .ok (.none _)
    | nextMember h hmore =>
      obtain ⟨fuel, rfl⟩ := h.exists_fuel hfuel
      obtain ⟨r, hr, heq⟩ := readSettings_member (fuel + 1) seen h (.cons (by decide) _)
      rw [heq]
      refine hr.bind fun seen' cs' hcomma => ?_
      obtain ⟨inside, hquote⟩ := hmore.members_head
      have hlength := h.length_lt
      simp only [List.length_cons] at hlength
      rw [readSettings_next fuel seen' hcomma hquote]
      exact ih seen' hmore (by omega)

end Members

/-! ### One fold for each key -/

/-- What the values under one key add to a setting that may be seen once. -/
def onceAll? (seen : Option (Option α)) : List Tree → Option (Option (Option α))
  | [] => some seen
  | v :: vs => (once? seen v).bind fun c => onceAll? (some c) vs

theorem valuesOf_cons_self (key : String) (v : Tree) (ms : List (String × Tree)) :
    valuesOf key ((key, v) :: ms) = v :: valuesOf key ms := by
  rw [valuesOf, List.filter_cons_of_pos (by simp), List.map_cons, valuesOf]

theorem valuesOf_cons_of_ne {key other : String} (h : other ≠ key) (v : Tree)
    (ms : List (String × Tree)) : valuesOf key ((other, v) :: ms) = valuesOf key ms := by
  rw [valuesOf, List.filter_cons_of_neg (by simpa using h), valuesOf]

/-- The members under different keys do not meet. -/
theorem Seen.addAll?_eq (seen : Seen) (ms : List (String × Tree)) :
    seen.addAll? ms =
      (onceAll? seen.dateFormat (valuesOf "dateFormat" ms)).bind fun dateFormat =>
      (onceAll? seen.colorScheme (valuesOf "colorScheme" ms)).bind fun colorScheme =>
      (onceAll? seen.uiDensity (valuesOf "uiDensity" ms)).map fun uiDensity =>
        ⟨dateFormat, colorScheme, uiDensity⟩ := by
  induction ms generalizing seen with
  | nil => rfl
  | cons m ms ih =>
    -- a member goes to the setting of its own name, and the values of the others stay as they are
    obtain ⟨key, v⟩ := m
    rw [Seen.addAll?, Seen.add?]
    split
    · next hkey =>
      subst hkey
      rw [valuesOf_cons_self, valuesOf_cons_of_ne (by decide), valuesOf_cons_of_ne (by decide),
        onceAll?]
      cases once? seen.dateFormat v with
      | none => rfl
      | some c => exact ih _
    split
    · next hkey =>
      subst hkey
      rw [valuesOf_cons_self, valuesOf_cons_of_ne (by decide), valuesOf_cons_of_ne (by decide)]
      cases h : once? seen.colorScheme v with
      | none => simp [onceAll?, h]
      | some c => simp [onceAll?, h, ih]
    split
    · next hkey =>
      subst hkey
      rw [valuesOf_cons_self, valuesOf_cons_of_ne (by decide), valuesOf_cons_of_ne (by decide)]
      cases h : once? seen.uiDensity v with
      | none => simp [onceAll?, h]
      | some c => simp [onceAll?, h, ih]
    · next hdate hcolor hdensity =>
      rw [valuesOf_cons_of_ne hdate, valuesOf_cons_of_ne hcolor, valuesOf_cons_of_ne hdensity]
      exact ih seen

/-- The values under a key are settled if each of them could be added in its turn. -/
theorem onceAll?_none (vs : List Tree) :
    (onceAll? none vs : Option (Option (Option α))).map Option.join = settle? vs := by
  match vs with
  | [] => rfl
  | [v] =>
    show ((choice? v).bind fun c => some (some c)).map _ = choice? v
    cases choice? (α := α) v <;> rfl
  | v :: w :: vs =>
    show ((choice? v).bind fun c => none).map _ = none
    cases choice? (α := α) v <;> rfl

/-! ### Whole texts -/

/-- An object is read as the patch of its settings, down to the end of the text. -/
theorem readPatch_object {ms : List (String × Tree)} {cs : List Char} (h : IsText (.obj ms) cs) :
    Reads (readPatch cs) ((Seen.nothing.addAll? ms).map Seen.patch) [] := by
  cases h with
  | item hbefore hv hbehind =>
  cases hv with
  | emptyObject h =>
    rw [readPatch, hbefore.skipSpace_eq rfl]
    show Reads ((readSettings _ _ _ _).map _) _ _
    rw [readSettings_end _ _ _ h]
    exact .ok hbehind
  | object h =>
    rw [readPatch, hbefore.skipSpace_eq rfl]
    exact ((readSettings_members .nothing h (Nat.le_refl _)).map Seen.patch).spaces hbehind

/-- What the members say is the patch that the reader collects. -/
theorem decoded?_eq (ms : List (String × Tree)) :
    decoded? ms = ((Seen.nothing.addAll? ms).map Seen.patch).map ofPatch := by
  rw [Seen.addAll?_eq, decoded?, ← onceAll?_none, ← onceAll?_none, ← onceAll?_none]
  show _ = Option.map ofPatch (Option.map Seen.patch ((onceAll? none _).bind fun _ =>
    (onceAll? none _).bind fun _ => (onceAll? none _).map fun _ => _))
  rcases onceAll? none (valuesOf "dateFormat" ms) with - | dateFormat
  · rfl
  rcases onceAll? none (valuesOf "colorScheme" ms) with - | colorScheme
  · rfl
  rcases onceAll? none (valuesOf "uiDensity" ms) with - | uiDensity <;> rfl

/-- What is decoded depends on the members alone. -/
theorem decode_toOption {raw : String} {ms : List (String × Tree)}
    (h : IsText (.obj ms) raw.toList) : (decode raw).toOption = decoded? ms := by
  have hread := readPatch_object h
  rw [decoded?_eq, decode, parsePatch]
  generalize (Seen.nothing.addAll? ms).map Seen.patch = found at hread
  cases found with
  | none =>
    obtain ⟨f, hf⟩ := hread
    rw [hf]
    rfl
  | some patch =>
    obtain ⟨cs, hok, hcs⟩ := hread
    rw [hok]
    show (((expectEnd cs >>= fun _ => pure patch).map ofPatch).toOption) = some (ofPatch patch)
    rw [expectEnd, hcs.skipSpace]
    rfl

/-! ### Which choices are made -/

/-- Choices that are found again by their tags. -/
class LawfulTagged (α : Type) [Tagged α] : Prop where
  ofTag?_tag (a : α) : Tagged.ofTag? (Tagged.tag a) = some a

instance : LawfulTagged DateFormat := ⟨by rintro (_ | _) <;> rfl⟩

instance : LawfulTagged ColorScheme := ⟨by rintro (_ | _ | _) <;> rfl⟩

instance : LawfulTagged UiDensity := ⟨by rintro (_ | _) <;> rfl⟩

/-- The values under a key are at most one, and it is null, a tag, or maps a tag to null. -/
def Admits (α : Type) [Tagged α] (vs : List Tree) : Prop :=
  vs.length ≤ 1 ∧
    ∀ v ∈ vs, v = .null ∨ ∃ a : α, v = .str (Tagged.tag a) ∨ v = .obj [(Tagged.tag a, .null)]

/-- The choice is the one whose tag is given, or the initial one where the key is absent or null. -/
def Selects (initial : α) (vs : List Tree) (a : α) : Prop :=
  (vs = [] ∨ vs = [.null]) ∧ a = initial ∨
    vs = [.str (Tagged.tag a)] ∨ vs = [.obj [(Tagged.tag a, .null)]]

/-- Only null leaves a choice open. -/
theorem choice?_eq_none_iff {v : Tree} : choice? (α := α) v = some none ↔ v = .null := by
  cases v <;> simp [choice?]

section Lawful

variable [LawfulTagged α]

/-- A tag belongs to one choice. -/
theorem ofTag?_eq_some_iff {tag : String} {a : α} :
    Tagged.ofTag? tag = some a ↔ tag = Tagged.tag a := by
  constructor
  · intro h
    have hfound := List.find?_some h
    exact (beq_iff_eq.mp hfound).symm
  · rintro rfl
    exact LawfulTagged.ofTag?_tag a

/-- An object names a choice by a single member that maps its tag to null. -/
theorem named?_eq_some_iff {ms : List (String × Tree)} {a : α} :
    named? ms = some a ↔ ms = [(Tagged.tag a, .null)] := by
  constructor
  · intro h
    match ms with
    | [] => cases h
    | m :: m' :: ms => rw [named?_of_two] at h; cases h
    | [(tag, v)] =>
      by_cases hv : v = .null
      · subst hv
        rw [ofTag?_eq_some_iff.mp h]
      · rw [named?_of_value hv] at h
        cases h
  · rintro rfl
    exact LawfulTagged.ofTag?_tag a

/-- A choice is written as its tag, or as an object that names it. -/
theorem choice?_eq_some_iff {v : Tree} {a : α} :
    choice? v = some (some a) ↔ v = .str (Tagged.tag a) ∨ v = .obj [(Tagged.tag a, .null)] := by
  cases v <;> simp [choice?, ofTag?_eq_some_iff, named?_eq_some_iff]

/-- What can stand for a choice, and what is refused. -/
theorem exists_choice?_iff {v : Tree} :
    (∃ c : Option α, choice? v = some c) ↔
      v = .null ∨ ∃ a : α, v = .str (Tagged.tag a) ∨ v = .obj [(Tagged.tag a, .null)] := by
  constructor
  · rintro ⟨- | a, h⟩
    · exact .inl (choice?_eq_none_iff.mp h)
    · exact .inr ⟨a, choice?_eq_some_iff.mp h⟩
  · rintro (h | ⟨a, h⟩)
    · exact ⟨none, choice?_eq_none_iff.mpr h⟩
    · exact ⟨some a, choice?_eq_some_iff.mpr h⟩

/-- The values under a key are accepted if there are none, or one that is acceptable. -/
theorem exists_settle?_iff {vs : List Tree} :
    (∃ c : Option α, settle? vs = some c) ↔ Admits α vs := by
  match vs with
  | [] => exact ⟨fun _ => ⟨by simp, by simp⟩, fun _ => ⟨none, rfl⟩⟩
  | [v] =>
    refine exists_choice?_iff.trans ?_
    simp [Admits]
  | v :: w :: vs =>
    constructor
    · rintro ⟨c, hc⟩
      cases hc
    · rintro ⟨hlength, -⟩
      simp at hlength

/-- What is left of the values under a key is the initial setting, or the choice of the only
value. -/
theorem selects_of_settle? {vs : List Tree} {c : Option α} (h : settle? vs = some c) (initial : α) :
    Selects initial vs (c.getD initial) := by
  match vs with
  | [] =>
    cases h
    exact .inl ⟨.inl rfl, rfl⟩
  | [v] =>
    cases c with
    | none => exact .inl ⟨.inr (congrArg (fun v => [v]) (choice?_eq_none_iff.mp h)), rfl⟩
    | some a =>
      rcases choice?_eq_some_iff.mp h with rfl | rfl
      · exact .inr (.inl rfl)
      · exact .inr (.inr rfl)
  | v :: w :: vs => cases h

end Lawful

/-- The settings are decided key by key. -/
theorem decoded?_eq_some_iff {ms : List (String × Tree)} {p : Preferences} :
    decoded? ms = some p ↔ ∃ dateFormat colorScheme uiDensity,
      settle? (valuesOf "dateFormat" ms) = some dateFormat ∧
      settle? (valuesOf "colorScheme" ms) = some colorScheme ∧
      settle? (valuesOf "uiDensity" ms) = some uiDensity ∧
      ofPatch ⟨dateFormat, colorScheme, uiDensity⟩ = p := by
  simp [decoded?, Option.bind_eq_some_iff]

/-! ### Members that do not matter -/

/-- The members that belong to a setting, in their order. -/
def settings (ms : List (String × Tree)) : List (String × Tree) :=
  ms.filter fun m => ["dateFormat", "colorScheme", "uiDensity"].contains m.1

/-- Members under other keys make no difference to what is found under the keys of the settings. -/
theorem valuesOf_settings {key : String} (h : key ∈ ["dateFormat", "colorScheme", "uiDensity"])
    (ms : List (String × Tree)) : valuesOf key (settings ms) = valuesOf key ms := by
  rw [valuesOf, valuesOf, settings, List.filter_filter]
  refine congrArg _ (List.filter_congr fun m _ => ?_)
  by_cases hkey : m.1 = key
  · rw [hkey, List.contains_iff_mem.mpr h, Bool.and_true]
  · rw [beq_eq_false_iff_ne.mpr hkey, Bool.false_and]

/-- The order of the values under a key does not matter, since there is one of them at most. -/
theorem settle?_perm {vs ws : List Tree} (h : vs.Perm ws) :
    (settle? vs : Option (Option α)) = settle? ws := by
  match vs with
  | [] => rw [h.nil_eq]
  | [v] => rw [List.singleton_perm.mp h]
  | v :: w :: vs =>
    match ws, h.length_eq with
    | _ :: _ :: _, _ => rfl

/-- Neither the order of the members nor what stands under other keys matters. -/
theorem decoded?_perm {ms ms' : List (String × Tree)} (h : (settings ms).Perm (settings ms')) :
    decoded? ms = decoded? ms' := by
  have hvalues : ∀ key ∈ ["dateFormat", "colorScheme", "uiDensity"],
      (valuesOf key ms).Perm (valuesOf key ms') := by
    intro key hkey
    rw [← valuesOf_settings hkey ms, ← valuesOf_settings hkey ms']
    exact (h.filter _).map _
  rw [decoded?, decoded?, settle?_perm (hvalues "dateFormat" (by simp)),
    settle?_perm (hvalues "colorScheme" (by simp)), settle?_perm (hvalues "uiDensity" (by simp))]

/-! ### The main statement -/

/-- The text of an object is decoded to what its members say. -/
theorem decode_eq_ok_iff {raw : String} {ms : List (String × Tree)}
    (h : IsText (.obj ms) raw.toList) {p : Preferences} :
    decode raw = .ok p ↔ decoded? ms = some p := by
  rw [← decode_toOption h]
  cases decode raw <;> simp [Except.toOption]

/-- An object decodes exactly if every setting occurs at most once, with null, a tag or an object
that maps a tag to null; a setting that is absent or null has its default.  The members with other
keys, the order of the members and the way in which the text is written do not matter. -/
theorem decode_object {raw : String} {ms : List (String × Tree)}
    (h : IsText (.obj ms) raw.toList) :
    ((∃ p, decode raw = .ok p) ↔
      Admits DateFormat (valuesOf "dateFormat" ms) ∧
      Admits ColorScheme (valuesOf "colorScheme" ms) ∧
      Admits UiDensity (valuesOf "uiDensity" ms)) ∧
    (∀ p, decode raw = .ok p →
      Selects default.dateFormat (valuesOf "dateFormat" ms) p.dateFormat ∧
      Selects default.colorScheme (valuesOf "colorScheme" ms) p.colorScheme ∧
      Selects default.uiDensity (valuesOf "uiDensity" ms) p.uiDensity) ∧
    ∀ (raw' : String) (ms' : List (String × Tree)), IsText (.obj ms') raw'.toList →
      (settings ms).Perm (settings ms') → (decode raw').toOption = (decode raw).toOption := by
  refine ⟨?_, ?_, ?_⟩
  · simp only [decode_eq_ok_iff h, decoded?_eq_some_iff, ← exists_settle?_iff]
    constructor
    · rintro ⟨p, dateFormat, colorScheme, uiDensity, hdate, hcolor, hdensity, -⟩
      exact ⟨⟨dateFormat, hdate⟩, ⟨colorScheme, hcolor⟩, ⟨uiDensity, hdensity⟩⟩
    · rintro ⟨⟨dateFormat, hdate⟩, ⟨colorScheme, hcolor⟩, ⟨uiDensity, hdensity⟩⟩
      exact ⟨_, dateFormat, colorScheme, uiDensity, hdate, hcolor, hdensity, rfl⟩
  · intro p hp
    obtain ⟨dateFormat, colorScheme, uiDensity, hdate, hcolor, hdensity, rfl⟩ :=
      decoded?_eq_some_iff.mp ((decode_eq_ok_iff h).mp hp)
    exact ⟨selects_of_settle? hdate _, selects_of_settle? hcolor _, selects_of_settle? hdensity _⟩
  · intro raw' ms' h' hperm
    rw [decode_toOption h, decode_toOption h', decoded?_perm hperm]

/-- A stored object with a blank, an unknown member, an escaped key and a choice as an object. -/
def spacedText : String :=
  " \x7b\"x\":[-2.5e3,\x7b\x7d],\"da\\u0074eFormat\" :\x7b\"iso\":null\x7d\x7d"

/-- What it says. -/
def spacedMembers : List (String × Tree) :=
  [("x", .arr [.number ⟨true, ['2'], ['5'], some (false, ['3'])⟩, .obj []]),
    ("dateFormat", .obj [("iso", .null)])]

theorem isText_spaced : IsText (.obj spacedMembers) spacedText.toList := by
  have htext : spacedText.toList =
      ' ' :: '{' :: '"' :: ("x".toList.flatMap escapeChar ++ '"' :: ':' :: '[' :: '-' :: '2' ::
        '.' :: '5' :: 'e' :: '3' :: ',' :: '{' :: '}' :: ']' :: ',' :: '"' ::
        'd' :: 'a' :: '\\' :: 'u' :: '0' :: '0' :: '7' :: '4' ::
        ("eFormat".toList.flatMap escapeChar ++ '"' :: ' ' :: ':' :: '{' :: '"' ::
        ("iso".toList.flatMap escapeChar ++ '"' :: ':' :: 'n' :: 'u' :: 'l' :: 'l' :: '}' ::
        ['}']))) := rfl
  have hdigit (d : Char) (hd : d.isDigit = true) (rest : List Char) :
      Digits [d] (d :: rest) rest := ⟨rfl, by simpa using hd, by simp⟩
  have hnumber (rest : List Char) : Numeral ⟨true, ['2'], ['5'], some (false, ['3'])⟩
      ('-' :: '2' :: '.' :: '5' :: 'e' :: '3' :: rest) rest :=
    .minus rfl (.parts (.digits (by decide) (hdigit '2' rfl _)) (.digits (hdigit '5' rfl _))
      (.digits (.inl rfl) (.none _) (hdigit '3' rfl _)))
  have hkey (rest : List Char) : Chars ('d' :: 'a' :: 't' :: "eFormat".toList)
      ('d' :: 'a' :: '\\' :: 'u' :: '0' :: '0' :: '7' :: '4' ::
        ("eFormat".toList.flatMap escapeChar ++ '"' :: rest)) rest :=
    .plain (by decide) (by decide) (by decide) <| .plain (by decide) (by decide) (by decide) <|
      .unit (show unitValue? '0' '0' '7' '4' = some 't'.toNat from rfl) rfl rfl (.written _ _)
  rw [htext]
  have hblank (rest : List Char) : Spaces (' ' :: rest) rest := .blank rfl (.none rest)
  refine .item (hblank _) (.object (.nextMember (.member (.none _) (.written "x".toList _) (.none _)
    (.item (.none _) (.list (.nextItem (.item (.none _) (.number (hnumber _)) (.none _))
      (.lastItem (.item (.none _) (.emptyObject (.none _)) (.none _))))) (.none _))) ?_)) (.none _)
  exact .lastMember (.member (.none _) (hkey _) (hblank _) (.item (.none _)
    (.object (.lastMember (.member (.none _) (.written "iso".toList _) (.none _)
      (.item (.none _) (.null _) (.none _))))) (.none _)))

/-- The setting is found and the others have their defaults; so it is in every text with the same
settings. -/
theorem decode_object_spaced :
    IsText (.obj spacedMembers) spacedText.toList ∧
      decode spacedText = .ok ⟨.iso, .system, .comfortable⟩ ∧
      Selects default.dateFormat (valuesOf "dateFormat" spacedMembers) DateFormat.iso ∧
      ∀ (raw' : String) (ms' : List (String × Tree)), IsText (.obj ms') raw'.toList →
        (settings spacedMembers).Perm (settings ms') →
        (decode raw').toOption = (decode spacedText).toOption := by
  obtain ⟨-, hselects, hperm⟩ := decode_object isText_spaced
  have hdecode : decode spacedText = .ok ⟨.iso, .system, .comfortable⟩ :=
    (decode_eq_ok_iff isText_spaced).mpr rfl
  exact ⟨isText_spaced, hdecode, (hselects _ hdecode).1, hperm⟩

end AppShell.Preferences
