/-
AppShell/Proofs/Preferences/Accepting.lean

Which texts decode.

What decodes is an object or an array.  In an object a setting occurs at most
once, and its value is null, its tag or an object that maps its tag to null; the
values of other members have the form of a value, which is all that is asked of
them (`SettingsObject`).  An array has at most three entries, which stand for
the settings in their order and are written in the same way; that nothing but an
object should decode is thus not so (`decode_list_of_one`).

Of an array each entry that is read leaves the shorter array of the entries
behind it (`ListFrom`), so that the three entries are one lemma; an entry that is
not there is read at the bracket, which stays for the next one.

The main statement is `decode_accepts`.
-/
import AppShell.Proofs.Json.Forms
import AppShell.Proofs.Preferences.Decoding

namespace AppShell.Preferences

open Json

variable {α : Type} [Tagged α] {cs cs' mid rest : List Char}

/-! ### One choice -/

theorem choose_eq_ok {tag : String} {a : α} (h : choose tag rest = .ok a) :
    Tagged.ofTag? tag = some a := by
  rw [choose] at h
  split at h
  · next b hb =>
    cases h
    exact hb
  · cases h

/-- What names a choice is the only member of an object. -/
theorem members_of_readNamed {a : α} (h : readNamed cs = .ok (a, rest)) :
    ∃ ms, Spells (.members ms) cs rest ∧ named? ms = some a := by
  rw [readNamed] at h
  split at h
  · cases h
  · next inside hspace =>
    obtain ⟨⟨tag, behind⟩, htag, hbehind⟩ := exists_of_bind_eq_ok h
    obtain ⟨b, hchoose, hmember⟩ := exists_of_bind_eq_ok hbehind
    obtain ⟨after, hcolon, hvalue⟩ := exists_of_bind_eq_ok hmember
    obtain ⟨characters, rfl, hcharacters⟩ := chars_of_readText htag
    split at hvalue
    · cases hvalue
    · next tail hnull =>
      obtain ⟨behind', hword, hbrace⟩ := exists_of_bind_eq_ok hvalue
      obtain rfl := eq_append_of_expectWord hword
      split at hbrace
      · cases hbrace
      · next out hend =>
        cases hbrace
        refine ⟨[(String.ofList characters, .null)], .lastMember (.member
          (spaces_of_skipSpace_eq hspace) hcharacters (spaces_of_expectColon hcolon)
          (.item (spaces_of_skipSpace_eq hnull) (.null _) (spaces_of_skipSpace_eq hend))), ?_⟩
        exact choose_eq_ok hchoose
      · cases hbrace
    · cases hvalue
  · cases h
  · cases h

/-- A choice that is read is that of the value in front of the rest. -/
theorem value_of_readChoice {c : Option α} (h : readChoice cs = .ok (c, rest)) :
    ∃ v cs', Spaces cs cs' ∧ Spells (.value v) cs' rest ∧ choice? v = some c := by
  rw [readChoice] at h
  split at h
  · cases h
  · next tail hspace =>
    obtain ⟨behind, hword, heq⟩ := exists_of_map_eq_ok h
    cases heq
    obtain rfl := eq_append_of_expectWord hword
    exact ⟨.null, _, spaces_of_skipSpace_eq hspace, .null rest, rfl⟩
  · next tail hspace =>
    obtain ⟨⟨tag, behind⟩, htag, h⟩ := exists_of_bind_eq_ok h
    obtain ⟨a, hchoose, h⟩ := exists_of_bind_eq_ok h
    cases h
    obtain ⟨characters, rfl, hcharacters⟩ := chars_of_readText htag
    refine ⟨.str _, _, spaces_of_skipSpace_eq hspace, .str hcharacters, ?_⟩
    rw [choice?, choose_eq_ok hchoose, Option.map_some]
  · next tail hspace =>
    obtain ⟨⟨a, behind⟩, hnamed, heq⟩ := exists_of_map_eq_ok h
    cases heq
    obtain ⟨ms, hmembers, hms⟩ := members_of_readNamed hnamed
    refine ⟨.obj ms, _, spaces_of_skipSpace_eq hspace, .object hmembers, ?_⟩
    rw [choice?, hms, Option.map_some]
  · cases h

/-! ### Objects -/

/-- The keys of the settings. -/
def IsSetting (key : String) : Prop :=
  key ∈ ["dateFormat", "colorScheme", "uiDensity"]

/-- A member of a stored object, with what it says of the settings: the value of a setting is
spelled, and that of any other key has the form of a value. -/
inductive SettingsMember : List (String × Tree) → List Char → List Char → Prop
  | setting {key : String} {v : Tree} {cs rest : List Char} :
      IsSetting key → Spells (.member key v) cs rest → SettingsMember [(key, v)] cs rest
  | other {key cs inside behind after cs' cs'' rest : List Char} :
      ¬ IsSetting (String.ofList key) → Spaces cs ('"' :: inside) → Chars key inside behind →
      Spaces behind (':' :: after) → Spaces after cs' → Formed .value cs' cs'' →
      Spaces cs'' rest → SettingsMember [] cs rest

/-- One or more members of a stored object with its closing brace behind them, and those of them
that belong to settings. -/
inductive SettingsMembers : List (String × Tree) → List Char → List Char → Prop
  | last {ms : List (String × Tree)} {cs rest : List Char} :
      SettingsMember ms cs ('}' :: rest) → SettingsMembers ms cs rest
  | next {m ms : List (String × Tree)} {cs cs' rest : List Char} :
      SettingsMember m cs (',' :: cs') → SettingsMembers ms cs' rest →
      SettingsMembers (m ++ ms) cs rest

/-- A whole text is an object, with the members that belong to settings. -/
inductive SettingsObject : List (String × Tree) → List Char → Prop
  | empty {cs cs' rest : List Char} :
      Spaces cs ('{' :: cs') → Spaces cs' ('}' :: rest) → Spaces rest [] → SettingsObject [] cs
  | members {ms : List (String × Tree)} {cs cs' rest : List Char} :
      Spaces cs ('{' :: cs') → SettingsMembers ms cs' rest → Spaces rest [] →
      SettingsObject ms cs

/-- The members of an object are taken in one after the other. -/
theorem Seen.addAll?_append (seen : Seen) (ms ms' : List (String × Tree)) :
    seen.addAll? (ms ++ ms') = (seen.addAll? ms).bind fun seen => seen.addAll? ms' := by
  induction ms generalizing seen with
  | nil => rfl
  | cons m ms ih =>
    obtain ⟨key, v⟩ := m
    show (seen.add? key v).bind (fun seen => seen.addAll? (ms ++ ms')) =
      ((seen.add? key v).bind fun seen => seen.addAll? ms).bind _
    rw [Option.bind_assoc]
    exact congrArg _ (funext ih)

/-- A setting is read from a colon and a value, the first of its name to have been seen. -/
theorem value_of_readSetting {name : String} {seen : Option (Option α)} {c : Option α}
    (h : readSetting name seen cs = .ok (c, rest)) :
    ∃ v after start, Spaces cs (':' :: after) ∧ Spaces after start ∧
      Spells (.value v) start rest ∧ once? seen v = some c := by
  rw [readSetting] at h
  split at h
  · cases h
  · next hseen =>
    obtain ⟨after, hcolon, h⟩ := exists_of_bind_eq_ok h
    obtain ⟨v, start, hbefore, hvalue, hchoice⟩ := value_of_readChoice h
    refine ⟨v, after, start, spaces_of_expectColon hcolon, hbefore, hvalue, ?_⟩
    rw [once?, if_neg hseen, hchoice]

/-- The value of a setting that is read, from its key on, is a member that says it. -/
theorem settingsMember_of_readSetting {key inside behind : List Char} {seen seen' : Seen}
    {field : Option (Option α)} (put : Option α → Seen) (hname : IsSetting (String.ofList key))
    (hadd : ∀ v, seen.add? (String.ofList key) v = (once? field v).map put)
    (hquote : Spaces cs ('"' :: inside)) (hkey : Chars key inside behind)
    (h : ((readSetting (String.ofList key) field behind).map fun p => (put p.1, p.2)) =
      .ok (seen', mid)) :
    ∃ ms, (∀ {rest}, Spaces mid rest → SettingsMember ms cs rest) ∧
      seen.addAll? ms = some seen' := by
  obtain ⟨⟨c, out⟩, hread, heq⟩ := exists_of_map_eq_ok h
  cases heq
  obtain ⟨v, after, start, hcolon, hbefore, hvalue, honce⟩ := value_of_readSetting hread
  refine ⟨[(String.ofList key, v)], fun hend =>
    .setting hname (.member hquote hkey hcolon (.item hbefore hvalue hend)), ?_⟩
  rw [Seen.addAll?, hadd, honce]
  rfl

/-- A member that is read, from its key on, adds what it says of the settings. -/
theorem settingsMember_of_readMember {key inside behind : List Char} {seen seen' : Seen}
    (hquote : Spaces cs ('"' :: inside)) (hkey : Chars key inside behind)
    (h : readMember seen (String.ofList key) behind = .ok (seen', mid)) :
    ∃ ms, (∀ {rest}, Spaces mid rest → SettingsMember ms cs rest) ∧
      seen.addAll? ms = some seen' := by
  rw [readMember] at h
  split at h
  · next hname =>
    refine settingsMember_of_readSetting (fun c => { seen with dateFormat := some c })
      (by simp [IsSetting, hname]) (fun v => ?_) hquote hkey h
    rw [Seen.add?, if_pos hname]
  split at h
  · next hdate hname =>
    refine settingsMember_of_readSetting (fun c => { seen with colorScheme := some c })
      (by simp [IsSetting, hname]) (fun v => ?_) hquote hkey h
    rw [Seen.add?, if_neg hdate, if_pos hname]
  split at h
  · next hdate hcolor hname =>
    refine settingsMember_of_readSetting (fun c => { seen with uiDensity := some c })
      (by simp [IsSetting, hname]) (fun v => ?_) hquote hkey h
    rw [Seen.add?, if_neg hdate, if_neg hcolor, if_pos hname]
  · next hdate hcolor hdensity =>
    obtain ⟨after, hcolon, h⟩ := exists_of_bind_eq_ok h
    obtain ⟨out, hskip, h⟩ := exists_of_bind_eq_ok h
    cases h
    obtain ⟨start, hbefore, hvalue⟩ := formed_of_skipValue hskip
    exact ⟨[], fun hend => .other (by simp [IsSetting, hdate, hcolor, hdensity]) hquote hkey
      (spaces_of_expectColon hcolon) hbefore hvalue hend, rfl⟩

/-- The members that are read end with the brace of their object, or are spelled up to it. -/
theorem settingsMembers_of_readSettings {fuel : Nat} {first : Bool} {seen seen' : Seen}
    (h : readSettings fuel first seen cs = .ok (seen', rest)) :
    Spaces cs ('}' :: rest) ∧ seen' = seen ∨
      ∃ cs' ms, EntriesFrom first cs cs' ∧ SettingsMembers ms cs' rest ∧
        seen.addAll? ms = some seen' := by
  induction fuel generalizing first seen cs with
  | zero => cases h
  | succ fuel ih =>
    -- one member, with those behind it or with the brace, whatever stood in front of its name
    have hentry : ∀ {start inside : List Char}, Spaces start ('"' :: inside) →
        (readText inside >>= fun p => readMember seen p.1 p.2 >>= fun q =>
          readSettings fuel false q.1 q.2) = .ok (seen', rest) →
        ∃ ms, SettingsMembers ms start rest ∧ seen.addAll? ms = some seen' := by
      intro start inside hquote h
      obtain ⟨⟨key, behind⟩, hkey, h⟩ := exists_of_bind_eq_ok h
      obtain ⟨⟨seen₁, mid⟩, hmember, hmore⟩ := exists_of_bind_eq_ok h
      obtain ⟨characters, rfl, hcharacters⟩ := chars_of_readText hkey
      obtain ⟨m, hm, hadd⟩ := settingsMember_of_readMember hquote hcharacters hmember
      rcases ih hmore with ⟨hend, rfl⟩ | ⟨next, ms, hcomma, hms, haddMore⟩
      · exact ⟨m, .last (hm hend), hadd⟩
      · refine ⟨m ++ ms, .next (hm hcomma) hms, ?_⟩
        rw [Seen.addAll?_append, hadd, Option.bind_some, haddMore]
    rw [readSettings] at h
    split at h
    · cases h
    · next hspace =>
      cases h
      exact .inl ⟨spaces_of_skipSpace_eq hspace, rfl⟩
    · next c tail _ hspace =>
      have hbefore := spaces_of_skipSpace_eq hspace
      cases first with
      -- the first name follows the brace of the object at once
      | true =>
        by_cases hc : c = '"'
        · subst hc
          obtain ⟨ms, hms, hadd⟩ := hentry hbefore h
          exact .inr ⟨cs, ms, rfl, hms, hadd⟩
        · rw [if_pos rfl, if_neg hc] at h
          cases h
      | false =>
        -- any other name follows a comma, behind which no brace may stand
        by_cases hc : c = ','
        · subst hc
          rw [if_neg Bool.false_ne_true, if_neg (not_not_intro rfl)] at h
          split at h
          · cases h
          · next hquote =>
            obtain ⟨ms, hms, hadd⟩ := hentry (spaces_of_skipSpace_eq hquote) h
            exact .inr ⟨tail, ms, hbefore, hms, hadd⟩
          · cases h
          · cases h
        · rw [if_neg Bool.false_ne_true, if_pos hc] at h
          cases h

/-! ### Arrays -/

/-- What is left of an array with the given entries: its bracket, or the entries and the bracket. -/
def ListFrom (first : Bool) (vs : List Tree) (cs rest : List Char) : Prop :=
  vs = [] ∧ Spaces cs (']' :: rest) ∨
    ∃ cs', EntriesFrom first cs cs' ∧ Spells (.items vs) cs' rest

/-- Blanks lead to one place only. -/
theorem not_spaces_of_ne {c d : Char} (hc : isSpace c = false) (hd : isSpace d = false)
    (hne : c ≠ d) : ¬ Spaces (c :: cs) (d :: rest) := by
  intro h
  have hskip := h.skipSpace_eq hd
  rw [(Spaces.none (c :: cs)).skipSpace_eq hc] at hskip
  exact hne (List.cons.inj hskip).1

/-- An empty rest of a list is its closing bracket, with blanks in front of it only. -/
theorem listFrom_nil_iff : ListFrom false [] cs rest ↔ Spaces cs (']' :: rest) := by
  constructor
  · rintro (⟨-, h⟩ | ⟨cs', -, h⟩)
    · exact h
    · cases h
  · exact fun h => .inl ⟨rfl, h⟩

/-- A value in front of the rest of a list makes a list that is one longer. -/
theorem items_of_listFrom {v : Tree} {vs : List Tree}
    (hv : ∀ {out}, Spaces mid out → Spells (.item v) cs out) (h : ListFrom false vs mid rest) :
    Spells (.items (v :: vs)) cs rest := by
  rcases h with ⟨rfl, hend⟩ | ⟨next, hcomma, hmore⟩
  · exact .lastItem (hv hend)
  · exact .nextItem (hv hcomma) hmore

/-- An entry that is read stands in front of those behind it, or all of them are missing. -/
theorem listFrom_of_readEntry {first : Bool} {c : Option α} {vs : List Tree}
    (h : readEntry first cs = .ok (c, mid)) (hmore : ListFrom false vs mid rest) :
    ∃ us, ListFrom first us cs rest ∧ settle? us[0]?.toList = some c ∧ us.tail = vs := by
  -- an entry is behind the bracket or behind a comma; what is read of it is the same
  have hentry : ∀ {start tail : List Char}, EntriesFrom first cs start → Spaces start tail →
      readChoice tail = .ok (c, mid) →
      ∃ us, ListFrom first us cs rest ∧ settle? us[0]?.toList = some c ∧ us.tail = vs := by
    intro start tail hfrom hspace h
    obtain ⟨v, cs', hbefore, hvalue, hchoice⟩ := value_of_readChoice h
    have hitems := items_of_listFrom (.item (hspace.trans hbefore) hvalue) hmore
    exact ⟨v :: vs, .inr ⟨start, hfrom, hitems⟩, hchoice, rfl⟩
  rw [readEntry] at h
  split at h
  · cases h
  · next tail hspace =>
    cases h
    rcases hmore with ⟨rfl, hend⟩ | ⟨next, hcomma, -⟩
    · exact ⟨[], .inl ⟨rfl, (spaces_of_skipSpace_eq hspace).trans hend⟩, rfl, rfl⟩
    · exact absurd hcomma (not_spaces_of_ne rfl rfl (by decide))
  · next d tail _ hspace =>
    have hbefore := spaces_of_skipSpace_eq hspace
    cases first with
    | true => exact hentry rfl hbefore h
    | false =>
      by_cases hd : d = ','
      · subst hd
        rw [if_neg Bool.false_ne_true, if_neg (not_not_intro rfl)] at h
        split at h
        · cases h
        · cases h
        · exact hentry hbefore (spaces_skipSpace tail) h
      · rw [if_neg Bool.false_ne_true, if_pos hd] at h
        cases h

/-- A choice is read past the blanks in front of it. -/
theorem readChoice_skipSpace (cs : List Char) :
    (readChoice (skipSpace cs) : Except Fault (Option α × List Char)) = readChoice cs := by
  rw [readChoice, skipSpace_skipSpace, readChoice]

/-- The first of some entries is read. -/
theorem readEntry_items {first : Bool} {vs : List Tree} (hfrom : EntriesFrom first cs cs')
    (h : Spells (.items vs) cs' rest) :
    (readEntry first cs : Except Fault (Option α × List Char)) = readChoice cs' := by
  obtain ⟨d, tail, hspace, hd⟩ := h.items_head
  rw [← readChoice_skipSpace cs', hspace]
  cases first with
  | true =>
    obtain rfl : cs = cs' := hfrom
    rw [readEntry, hspace]
    split
    · next he => cases he
    · next he =>
      cases he
      exact absurd rfl hd
    · next he =>
      cases he
      rfl
  | false =>
    have hcomma : Spaces cs (',' :: cs') := hfrom
    rw [readEntry, hcomma.skipSpace_eq rfl]
    -- behind the comma the blanks are skipped once more
    conv =>
      lhs
      whnf
    rw [hspace]
    split
    · next he => cases he
    · next he =>
      cases he
      exact absurd rfl hd
    · rfl

/-- The next entry is read, and leaves those behind it. -/
theorem readEntry_of_listFrom {first : Bool} {c : Option α} {vs : List Tree}
    (h : ListFrom first vs cs rest) (hc : settle? vs[0]?.toList = some c) :
    ∃ mid, readEntry first cs = .ok (c, mid) ∧ ListFrom false vs.tail mid rest := by
  rcases h with ⟨rfl, hend⟩ | ⟨cs', hfrom, hitems⟩
  · cases hc
    refine ⟨']' :: rest, ?_, listFrom_nil_iff.2 (.none _)⟩
    rw [readEntry, hend.skipSpace_eq rfl]
    rfl
  · rw [readEntry_items hfrom hitems]
    cases hitems with
    | lastItem hitem =>
      have hread : Reads (readChoice cs') (choice? _ : Option (Option α)) _ := readChoice_item hitem
      rw [show choice? _ = some c from hc] at hread
      obtain ⟨mid, hok, hmid⟩ := hread
      exact ⟨mid, hok, listFrom_nil_iff.2 hmid⟩
    | nextItem hitem hmore =>
      have hread : Reads (readChoice cs') (choice? _ : Option (Option α)) _ := readChoice_item hitem
      rw [show choice? _ = some c from hc] at hread
      obtain ⟨mid, hok, hmid⟩ := hread
      exact ⟨mid, hok, .inr ⟨_, hmid, hmore⟩⟩

/-- The end of a list is its closing bracket, with blanks in front of it only. -/
theorem expectListEnd_eq_ok_iff : expectListEnd cs = .ok rest ↔ Spaces cs (']' :: rest) := by
  constructor
  · intro h
    rw [expectListEnd] at h
    split at h
    · cases h
    · next hspace =>
      cases h
      exact spaces_of_skipSpace_eq hspace
    · split at h <;> cases h
    · cases h
  · intro h
    rw [expectListEnd, h.skipSpace_eq rfl]
    rfl

/-- The entries of an array say a patch. -/
def ListSays (vs : List Tree) (patch : PreferencesPatch) : Prop :=
  vs.length ≤ 3 ∧ settle? vs[0]?.toList = some patch.dateFormat ∧
    settle? vs[1]?.toList = some patch.colorScheme ∧ settle? vs[2]?.toList = some patch.uiDensity

/-- The list form is read from exactly the lists that say the settings in order. -/
theorem readList_eq_ok_iff {patch : PreferencesPatch} :
    readList cs = .ok (patch, rest) ↔ ∃ vs, ListFrom true vs cs rest ∧ ListSays vs patch := by
  constructor
  · intro h
    obtain ⟨⟨dateFormat, behindDate⟩, hdate, h⟩ := exists_of_bind_eq_ok h
    obtain ⟨⟨colorScheme, behindColor⟩, hcolor, h⟩ := exists_of_bind_eq_ok h
    obtain ⟨⟨uiDensity, behindDensity⟩, hdensity, h⟩ := exists_of_bind_eq_ok h
    obtain ⟨out, hend, h⟩ := exists_of_bind_eq_ok h
    cases h
    -- the readers ran from the front to the end, and the list is put together from its end
    obtain ⟨vs₂, hfrom₂, hsettle₂, htail₂⟩ :=
      listFrom_of_readEntry hdensity (listFrom_nil_iff.2 (expectListEnd_eq_ok_iff.1 hend))
    obtain ⟨vs₁, hfrom₁, hsettle₁, rfl⟩ := listFrom_of_readEntry hcolor hfrom₂
    obtain ⟨vs, hfrom, hsettle, rfl⟩ := listFrom_of_readEntry hdate hfrom₁
    refine ⟨vs, hfrom, ?_, hsettle, ?_, ?_⟩
    · have hlength := congrArg List.length htail₂
      simp only [List.length_tail, List.length_nil] at hlength
      omega
    · rwa [List.getElem?_tail] at hsettle₁
    · rwa [List.getElem?_tail, List.getElem?_tail] at hsettle₂
  · rintro ⟨vs, hfrom, hlength, hdate, hcolor, hdensity⟩
    obtain ⟨mid₁, hread₁, hfrom⟩ := readEntry_of_listFrom hfrom hdate
    rw [← List.getElem?_tail] at hcolor
    obtain ⟨mid₂, hread₂, hfrom⟩ := readEntry_of_listFrom hfrom hcolor
    rw [← List.getElem?_tail, ← List.getElem?_tail] at hdensity
    obtain ⟨mid₃, hread₃, hfrom⟩ := readEntry_of_listFrom hfrom hdensity
    -- three entries were read, so that nothing but the bracket may be left
    have hnil : vs.tail.tail.tail = [] := by
      apply List.eq_nil_of_length_eq_zero
      simp only [List.length_tail]
      omega
    rw [hnil, listFrom_nil_iff] at hfrom
    rw [readList, hread₁]
    show (readEntry false mid₁ >>= _) = _
    rw [hread₂]
    show (readEntry false mid₂ >>= _) = _
    rw [hread₃]
    show (expectListEnd mid₃ >>= _) = _
    rw [expectListEnd_eq_ok_iff.2 hfrom]
    rfl

/-- A text is a list when it is a bracket and the items behind it, between blanks. -/
theorem isText_arr_iff {vs : List Tree} : IsText (.arr vs) cs ↔
    ∃ cs' rest, Spaces cs ('[' :: cs') ∧ ListFrom true vs cs' rest ∧ Spaces rest [] := by
  constructor
  · intro h
    cases h with
    | item hbefore hvalue hbehind =>
      cases hvalue with
      | emptyList hend => exact ⟨_, _, hbefore, .inl ⟨rfl, hend⟩, hbehind⟩
      | list hitems => exact ⟨_, _, hbefore, .inr ⟨_, rfl, hitems⟩, hbehind⟩
  · rintro ⟨cs', rest, hbefore, ⟨rfl, hend⟩ | ⟨_, rfl, hitems⟩, hbehind⟩
    · exact .item hbefore (.emptyList hend) hbehind
    · exact .item hbefore (.list hitems) hbehind

/-! ### Whole texts -/

/-- Preferences are read from an object or from a list, and from nothing else. -/
theorem readPatch_cases {patch : PreferencesPatch} (h : readPatch cs = .ok (patch, rest)) :
    (∃ cs' seen, Spaces cs ('{' :: cs') ∧ patch = seen.patch ∧
      readSettings (cs'.length + 1) true .nothing cs' = .ok (seen, rest)) ∨
    ∃ cs', Spaces cs ('[' :: cs') ∧ readList cs' = .ok (patch, rest) := by
  rw [readPatch] at h
  split at h
  · cases h
  · next cs' hspace =>
    obtain ⟨⟨seen, out⟩, hread, heq⟩ := exists_of_map_eq_ok h
    cases heq
    exact .inl ⟨cs', seen, spaces_of_skipSpace_eq hspace, rfl, hread⟩
  · next cs' hspace => exact .inr ⟨cs', spaces_of_skipSpace_eq hspace, h⟩
  · cases h

/-- A text that decodes is a patch with blanks behind it only, over the defaults. -/
theorem exists_of_decode {raw : String} {p : Preferences} (h : decode raw = .ok p) :
    ∃ patch rest, readPatch raw.toList = .ok (patch, rest) ∧ Spaces rest [] ∧
      p = ofPatch patch := by
  obtain ⟨patch, hparse, rfl⟩ := exists_of_map_eq_ok h
  obtain ⟨⟨patch', rest⟩, hread, h⟩ := exists_of_bind_eq_ok hparse
  obtain ⟨u, hend, h⟩ := exists_of_bind_eq_ok h
  cases h
  exact ⟨patch, rest, hread, spaces_of_expectEnd hend, rfl⟩

/-- A patch with blanks behind it decodes, over the defaults. -/
theorem decode_of_readPatch {raw : String} {patch : PreferencesPatch}
    (h : readPatch raw.toList = .ok (patch, rest)) (hend : Spaces rest []) :
    decode raw = .ok (ofPatch patch) := by
  rw [decode, parsePatch, h]
  show ((expectEnd rest >>= fun _ => pure patch).map ofPatch) = _
  rw [expectEnd, hend.skipSpace]
  rfl

/-- The settings are those that the values for them select. -/
structure Chosen (dateFormat colorScheme uiDensity : List Tree) (p : Preferences) : Prop where
  dateFormat : Selects default.dateFormat dateFormat p.dateFormat
  colorScheme : Selects default.colorScheme colorScheme p.colorScheme
  uiDensity : Selects default.uiDensity uiDensity p.uiDensity

/-- What a list of values selects is what settling them one by one gives. -/
theorem exists_settle?_of_selects [LawfulTagged α] {initial a : α} {vs : List Tree}
    (h : Selects initial vs a) : ∃ c : Option α, settle? vs = some c ∧ c.getD initial = a := by
  rcases h with ⟨rfl | rfl, rfl⟩ | rfl | rfl
  · exact ⟨none, rfl, rfl⟩
  · exact ⟨none, rfl, rfl⟩
  · exact ⟨some a, choice?_eq_some_iff.2 (.inl rfl), rfl⟩
  · exact ⟨some a, choice?_eq_some_iff.2 (.inr rfl), rfl⟩

/-- The preferences chosen by three lists of values are the patch that settles each of them. -/
theorem chosen_iff {vs ws us : List Tree} {p : Preferences} :
    Chosen vs ws us p ↔ ∃ patch : PreferencesPatch, settle? vs = some patch.dateFormat ∧
      settle? ws = some patch.colorScheme ∧ settle? us = some patch.uiDensity ∧
      p = ofPatch patch := by
  constructor
  · rintro ⟨hdate, hcolor, hdensity⟩
    obtain ⟨dateFormat, hvs, hdate⟩ := exists_settle?_of_selects hdate
    obtain ⟨colorScheme, hws, hcolor⟩ := exists_settle?_of_selects hcolor
    obtain ⟨uiDensity, hus, hdensity⟩ := exists_settle?_of_selects hdensity
    refine ⟨⟨dateFormat, colorScheme, uiDensity⟩, hvs, hws, hus, ?_⟩
    rw [ofPatch, merge, hdate, hcolor, hdensity]
  · rintro ⟨patch, hvs, hws, hus, rfl⟩
    exact ⟨selects_of_settle? hvs _, selects_of_settle? hws _, selects_of_settle? hus _⟩

/-- What the members of an object say is chosen by the values under each key. -/
theorem chosen_of_addAll? {ms : List (String × Tree)} {seen : Seen}
    (h : Seen.nothing.addAll? ms = some seen) :
    Chosen (valuesOf "dateFormat" ms) (valuesOf "colorScheme" ms) (valuesOf "uiDensity" ms)
      (ofPatch seen.patch) := by
  have hdecoded : decoded? ms = some (ofPatch seen.patch) := by
    rw [decoded?_eq, h]
    rfl
  obtain ⟨dateFormat, colorScheme, uiDensity, hdate, hcolor, hdensity, hp⟩ :=
    decoded?_eq_some_iff.1 hdecoded
  exact chosen_iff.2 ⟨⟨dateFormat, colorScheme, uiDensity⟩, hdate, hcolor, hdensity, hp.symm⟩

/-- A text that decodes to the settings as an object. -/
def DecodesAsObject (raw : String) (p : Preferences) : Prop :=
  ∃ ms, SettingsObject ms raw.toList ∧
    Chosen (valuesOf "dateFormat" ms) (valuesOf "colorScheme" ms) (valuesOf "uiDensity" ms) p

/-- A text that decodes to the settings as an array. -/
def DecodesAsList (raw : String) (p : Preferences) : Prop :=
  ∃ vs, IsText (.arr vs) raw.toList ∧ vs.length ≤ 3 ∧
    Chosen vs[0]?.toList vs[1]?.toList vs[2]?.toList p

/-- The object form starts with a brace. -/
theorem SettingsObject.exists_brace {ms : List (String × Tree)} (h : SettingsObject ms cs) :
    ∃ cs', Spaces cs ('{' :: cs') := by
  cases h with
  | empty hbefore | members hbefore => exact ⟨_, hbefore⟩

theorem DecodesAsObject.exists_brace {raw : String} {p : Preferences} (h : DecodesAsObject raw p) :
    ∃ cs, Spaces raw.toList ('{' :: cs) := by
  obtain ⟨ms, hobject, -⟩ := h
  exact hobject.exists_brace

/-- The list form starts with a bracket. -/
theorem DecodesAsList.exists_bracket {raw : String} {p : Preferences} (h : DecodesAsList raw p) :
    ∃ cs, Spaces raw.toList ('[' :: cs) := by
  obtain ⟨vs, hlist, -⟩ := h
  obtain ⟨cs, rest, hbefore, -⟩ := isText_arr_iff.1 hlist
  exact ⟨cs, hbefore⟩

/-- A text decodes as a list when the reader of the list form takes it to its end. -/
theorem decodesAsList_iff {raw : String} {p : Preferences} :
    DecodesAsList raw p ↔ ∃ patch cs rest, Spaces raw.toList ('[' :: cs) ∧
      readList cs = .ok (patch, rest) ∧ Spaces rest [] ∧ p = ofPatch patch := by
  simp only [DecodesAsList, chosen_iff, isText_arr_iff, readList_eq_ok_iff]
  constructor
  · rintro ⟨vs, ⟨cs, rest, hbefore, hfrom, hend⟩, hlength, patch, hdate, hcolor, hdensity, hp⟩
    exact ⟨patch, cs, rest, hbefore, ⟨vs, hfrom, hlength, hdate, hcolor, hdensity⟩, hend, hp⟩
  · rintro ⟨patch, cs, rest, hbefore, ⟨vs, hfrom, hlength, hdate, hcolor, hdensity⟩, hend, hp⟩
    exact ⟨vs, ⟨cs, rest, hbefore, hfrom, hend⟩, hlength, patch, hdate, hcolor, hdensity, hp⟩

/-- A text that the reader of settings takes to its end decodes as an object. -/
theorem decodesAsObject_of_readSettings {raw : String} {fuel : Nat} {seen : Seen}
    (hbefore : Spaces raw.toList ('{' :: cs))
    (h : readSettings fuel true .nothing cs = .ok (seen, rest)) (hend : Spaces rest []) :
    DecodesAsObject raw (ofPatch seen.patch) := by
  rcases settingsMembers_of_readSettings h with ⟨hbrace, rfl⟩ | ⟨_, ms, rfl, hms, hadd⟩
  · exact ⟨[], .empty hbefore hbrace hend, chosen_of_addAll? rfl⟩
  · exact ⟨ms, .members hbefore hms hend, chosen_of_addAll? hadd⟩

/-! ### The main statement -/

/-- What decodes is an object whose settings are null, tags or objects that map a tag to null, or
an array of at most three such values; and every such array decodes. -/
theorem decode_accepts (raw : String) (p : Preferences) :
    (decode raw = .ok p → DecodesAsObject raw p ∨ DecodesAsList raw p) ∧
    (DecodesAsList raw p → decode raw = .ok p) := by
  constructor
  · intro h
    obtain ⟨patch, rest, hread, hend, rfl⟩ := exists_of_decode h
    rcases readPatch_cases hread with ⟨cs, seen, hbefore, rfl, hsettings⟩ | ⟨cs, hbefore, hlist⟩
    · exact .inl (decodesAsObject_of_readSettings hbefore hsettings hend)
    · exact .inr (decodesAsList_iff.2 ⟨patch, cs, rest, hbefore, hlist, hend, rfl⟩)
  · intro h
    obtain ⟨patch, cs, rest, hbefore, hlist, hend, rfl⟩ := decodesAsList_iff.1 h
    refine decode_of_readPatch ?_ hend
    rw [readPatch, hbefore.skipSpace_eq rfl]
    exact hlist

/-- An object with an escaped surrogate that has no partner, in a member of another name. -/
def surrogateText : String :=
  "\x7b\"x\":\"\\ud800\",\"uiDensity\":\"compact\"\x7d"

/-- An array whose third entry is missing. -/
def shortListText : String :=
  "[null,\x7b\"light\":null\x7d]"

/-- Neither of the two ways to decode is idle. -/
theorem decode_accepts_bothWays :
    decode surrogateText = .ok ⟨.system, .system, .compact⟩ ∧
      DecodesAsObject surrogateText ⟨.system, .system, .compact⟩ ∧
      decode shortListText = .ok ⟨.system, .light, .comfortable⟩ ∧
      DecodesAsList shortListText ⟨.system, .light, .comfortable⟩ := by
  have hobject : decode surrogateText = .ok ⟨.system, .system, .compact⟩ := by decide +kernel
  have hlist : decode shortListText = .ok ⟨.system, .light, .comfortable⟩ := by decide +kernel
  refine ⟨hobject, ((decode_accepts _ _).1 hobject).resolve_right fun h => ?_, hlist,
    ((decode_accepts _ _).1 hlist).resolve_left fun h => ?_⟩
  · obtain ⟨cs, hbracket⟩ := h.exists_bracket
    exact not_spaces_of_ne rfl rfl (by decide) hbracket
  · obtain ⟨cs, hbrace⟩ := h.exists_brace
    exact not_spaces_of_ne rfl rfl (by decide) hbrace

/-- Values are null or tags. -/
def Plain (α : Type) [Tagged α] (vs : List Tree) : Prop :=
  ∀ v ∈ vs, v = .null ∨ ∃ a : α, v = .str (Tagged.tag a)

/-- An array of one tag decodes, so that it is not only objects that do. -/
theorem decode_list_of_one : ¬ ∀ (raw : String) (p : Preferences), decode raw = .ok p →
    ∃ ms, SettingsObject ms raw.toList ∧ Plain DateFormat (valuesOf "dateFormat" ms) ∧
      Plain ColorScheme (valuesOf "colorScheme" ms) ∧
      Plain UiDensity (valuesOf "uiDensity" ms) := by
  intro h
  have hdecode : decode "[\"iso\"]" = .ok ⟨.iso, .system, .comfortable⟩ := by decide +kernel
  obtain ⟨ms, hobject, -⟩ := h _ _ hdecode
  obtain ⟨cs, hbrace⟩ := hobject.exists_brace
  exact not_spaces_of_ne rfl rfl (by decide) hbrace

end AppShell.Preferences
