/-
AppShell/Proofs/Json/Accepting.lean

Whatever is read is a text of the grammar.

A reader that answers a value has gone along the grammar: what it took off the
front of the text spells a tree, and the value is the one of this tree
(`FindsSpelled`).  The depth drives the induction for nested values, and the bound
on the number of entries the one within an array or object; what is left behind
an entry is followed by blanks and a comma or the closing bracket, which is how
the next entry is found.

With the other direction, a text is read as a value exactly if it is one of the
ways to write it: `parse_eq_ok_iff`.
-/
import Mathlib.Data.List.TakeWhile
import AppShell.Proofs.Json.Reading

namespace AppShell.Json

/-! ### Results of readers -/

section Results

variable {α β : Type} {r : Except Fault α}

theorem exists_of_map_eq_ok {f : α → β} {b : β} (h : r.map f = .ok b) :
    ∃ a, r = .ok a ∧ f a = b := by
  cases r with
  | error e => cases h
  | ok a => exact ⟨a, rfl, Except.ok.inj h⟩

theorem exists_of_bind_eq_ok {f : α → Except Fault β} {b : β} (h : (r >>= f) = .ok b) :
    ∃ a, r = .ok a ∧ f a = .ok b := by
  cases r with
  | error e => cases h
  | ok a => exact ⟨a, rfl, h⟩

end Results

section Tokens

variable {ds cs rest : List Char} {atEnd : Cause}

/-! ### Blanks and words -/

/-- What the reader skips in front of a value are blanks of the grammar. -/
theorem spaces_skipSpace (cs : List Char) : Spaces cs (skipSpace cs) := by
  induction cs with
  | nil => exact .none []
  | cons c cs ih =>
    by_cases hc : isSpace c = true
    · rw [skipSpace, List.dropWhile_cons_of_pos hc]
      exact .blank hc ih
    · rw [skipSpace, List.dropWhile_cons_of_neg hc]
      exact .none _

/-- What the blanks are skipped to stands behind them. -/
theorem spaces_of_skipSpace_eq (h : skipSpace cs = rest) : Spaces cs rest :=
  h ▸ spaces_skipSpace cs

/-- The reader takes a word of the language letter by letter. -/
theorem eq_append_of_expectWord {word : List Char} (h : expectWord word cs = .ok rest) :
    cs = word ++ rest := by
  induction word generalizing cs with
  | nil => exact Except.ok.inj h
  | cons w word ih =>
    cases cs with
    | nil => cases h
    | cons c cs =>
      rw [expectWord] at h
      split at h
      · next hc => rw [hc, ih h, List.cons_append]
      · cases h

/-- The reader finds a colon, with blanks in front of it only. -/
theorem spaces_of_expectColon (h : expectColon cs = .ok rest) : Spaces cs (':' :: rest) := by
  rw [expectColon] at h
  split at h
  · cases h
  · next hspace =>
    obtain rfl := Except.ok.inj h
    exact spaces_of_skipSpace_eq hspace
  · cases h

/-- The reader finds the end, with blanks in front of it only. -/
theorem spaces_of_expectEnd {u : Unit} (h : expectEnd cs = .ok u) : Spaces cs [] := by
  rw [expectEnd] at h
  split at h
  · next hspace => exact spaces_of_skipSpace_eq hspace
  · cases h

/-! ### Numbers -/

/-- What is read as digits is a run of digits that is not empty. -/
theorem digits_of_needDigits (h : needDigits atEnd cs = .ok (ds, rest)) : Digits ds cs rest := by
  rw [needDigits] at h
  split at h
  · cases h
  · cases h
  · next hne =>
    obtain ⟨rfl, rfl⟩ := Prod.mk.inj (Except.ok.inj h)
    refine ⟨List.takeWhile_append_dropWhile.symm, fun d hd => List.mem_takeWhile_imp hd, ?_⟩
    exact fun hnil => hne _ (Prod.ext hnil rfl)

/-- What is read in front of the point is a zero or a numeral without a leading zero. -/
theorem whole_of_scanWhole (h : scanWhole atEnd cs = .ok (ds, rest)) : Whole ds cs rest := by
  rw [scanWhole] at h
  split at h
  · cases h
  · cases h
  · next found hzero hfound =>
    obtain rfl := Except.ok.inj h
    have hdigits := digits_of_needDigits hfound
    obtain ⟨d, ds', rfl⟩ := List.exists_cons_of_ne_nil hdigits.ne_nil
    by_cases hd : d = '0'
    · -- a zero with more digits behind it was refused
      subst hd
      cases ds' with
      | nil =>
        rw [hdigits.text]
        exact .zero rest
      | cons d' ds' => exact absurd rfl (hzero d' ds' rest)
    · exact .digits hd hdigits

/-- What is read as a fraction is a point with digits behind it, or nothing. -/
theorem fraction_of_scanFraction (h : scanFraction atEnd cs = .ok (ds, rest)) :
    Fraction ds cs rest := by
  unfold scanFraction at h
  split at h
  · exact .digits (digits_of_needDigits h)
  · cases h
    exact .none cs

/-- What is read as the sign of an exponent is a sign, or nothing. -/
theorem exponentSign_scanSign (cs : List Char) :
    ExponentSign (scanSign cs).1 cs (scanSign cs).2 := by
  unfold scanSign
  split
  · exact .plus _
  · exact .minus _
  · exact .none _

/-- What is read as an exponent is a mark with digits behind it, or nothing. -/
theorem exponent_of_scanExponent {e : Option (Bool × List Char)}
    (h : scanExponent atEnd cs = .ok (e, rest)) : Exponent e cs rest := by
  unfold scanExponent at h
  split at h
  · split at h
    · next hletter =>
      obtain ⟨⟨ds, behind⟩, hdigits, heq⟩ := exists_of_map_eq_ok h
      cases heq
      exact .digits hletter (exponentSign_scanSign _) (digits_of_needDigits hdigits)
    · cases h
      exact .none _
  · cases h
    exact .none _

/-- A number that is taken apart has these parts. -/
theorem magnitude_of_scanNumber {negative : Bool} {n : Literal}
    (h : scanNumber atEnd negative cs = .ok (n, rest)) :
    n.negative = negative ∧ Magnitude n cs rest := by
  rw [scanNumber] at h
  obtain ⟨⟨whole, behindWhole⟩, hwhole, h⟩ := exists_of_bind_eq_ok h
  obtain ⟨⟨fraction, behindFraction⟩, hfraction, h⟩ := exists_of_bind_eq_ok h
  obtain ⟨⟨exponent, behind⟩, hexponent, h⟩ := exists_of_bind_eq_ok h
  cases h
  exact ⟨rfl, .parts (whole_of_scanWhole hwhole) (fraction_of_scanFraction hfraction)
    (exponent_of_scanExponent hexponent)⟩

/-- What is read as a number is spelled as one, and its value is the one read. -/
theorem exists_of_readNumber {negative : Bool} {v : Json}
    (h : readNumber negative cs = .ok (v, rest)) :
    ∃ n : Literal, n.negative = negative ∧ Magnitude n cs rest ∧ n.value = .ok v := by
  rw [readNumber] at h
  split at h
  · cases h
  · next n behind hscan =>
    split at h
    · next w hvalue =>
      cases h
      obtain ⟨hsign, hmagnitude⟩ := magnitude_of_scanNumber hscan
      exact ⟨n, hsign, hmagnitude, hvalue⟩
    · cases h

/-! ### Strings -/

/-- A letter that the reader knows behind a backslash is one of the eight of the grammar. -/
theorem mem_of_letterEscape? {l c : Char} (h : letterEscape? l = some c) :
    (l, c) ∈ escapeLetters := by
  unfold letterEscape? at h
  split at h
  all_goals first
    | (cases h; decide)
    | cases h

/-- Four characters are read as a code unit when they are the hexadecimal digits of one. -/
theorem exists_of_readUnit {n : Nat} (h : readUnit cs = .ok (n, rest)) :
    ∃ a b c d, cs = a :: b :: c :: d :: rest ∧ unitValue? a b c d = some n := by
  unfold readUnit at h
  split at h
  · next a b c d behind =>
    split at h
    · next m hm =>
      cases h
      exact ⟨a, b, c, d, rfl, hm⟩
    · cases h
  · cases h

/-- The second half of a pair is escaped by its number. -/
theorem exists_of_readTrailing {lead : Nat} {c : Char} (h : readTrailing lead cs = .ok (c, rest)) :
    ∃ a b d e trail, cs = '\\' :: 'u' :: a :: b :: d :: e :: rest ∧
      unitValue? a b d e = some trail ∧ isTrailing trail = true ∧
      c = joinSurrogates lead trail := by
  unfold readTrailing at h
  split at h
  · split at h
    · cases h
    · next n behind hunit =>
      split at h
      · next htrailing =>
        obtain ⟨rfl, rfl⟩ := Prod.mk.inj (Except.ok.inj h)
        obtain ⟨a, b, d, e, rfl, hn⟩ := exists_of_readUnit hunit
        exact ⟨a, b, d, e, n, rfl, hn, htrailing, rfl⟩
      · cases h
  all_goals cases h

/-- An escape that is read spells its character in front of whatever follows. -/
theorem chars_of_readEscape {c : Char} {s out : List Char} (h : readEscape cs = .ok (c, rest))
    (hrest : Chars s rest out) : Chars (c :: s) ('\\' :: cs) out := by
  unfold readEscape at h
  split at h
  · cases h
  · next l behind =>
    split at h
    · next hu =>
      subst hu
      rw [readNumbered] at h
      split at h
      · cases h
      · next n after hunit =>
        obtain ⟨a, b, d, e, rfl, hn⟩ := exists_of_readUnit hunit
        split at h
        · cases h
        · next htrailing =>
          split at h
          · next hleading =>
            obtain ⟨a', b', d', e', trail, rfl, htrail, htrailing', hjoin⟩ :=
              exists_of_readTrailing h
            rw [hjoin]
            exact .pair hn hleading htrail htrailing' hrest
          · next hleading =>
            obtain ⟨rfl, rfl⟩ := Prod.mk.inj (Except.ok.inj h)
            exact .unit hn (Bool.eq_false_iff.2 hleading) (Bool.eq_false_iff.2 htrailing) hrest
    · split at h
      · next d hletter =>
        cases h
        exact .letter (mem_of_letterEscape? hletter) hrest
      · cases h

/-- The characters that are read are those that the string spells. -/
theorem chars_of_readChars {s : List Char} (h : readChars cs = .ok (s, rest)) :
    Chars s cs rest := by
  fun_induction readChars cs generalizing s rest with
  | case1 => cases h
  | case2 => cases h; exact .close _
  | case3 => cases h
  | case4 => cases h
  | case5 cs c behind hescape more after hmore ih =>
    cases h
    exact chars_of_readEscape hescape (ih hmore)
  | case6 => cases h
  | case7 => cases h
  | case8 c cs hquote hescape hcontrol more after hmore ih =>
    cases h
    exact .plain (Nat.not_lt.1 hcontrol) hquote hescape (ih hmore)

/-- What is read as the inside of a string is spelled by characters of the grammar. -/
theorem chars_of_readText {s : String} (h : readText cs = .ok (s, rest)) :
    ∃ characters, s = String.ofList characters ∧ Chars characters cs rest := by
  obtain ⟨⟨characters, behind⟩, hread, heq⟩ := exists_of_map_eq_ok h
  cases heq
  exact ⟨characters, rfl, chars_of_readChars hread⟩

end Tokens

/-! ### Entries -/

/-- A reader of values that nest at most `depth` deep finds what is spelled behind the blanks. -/
def FindsSpelled (depth : Nat) (item : Reader Json) : Prop :=
  ∀ {cs rest v}, item cs = .ok (v, rest) →
    ∃ t cs', Spaces cs cs' ∧ Spells (.value t) cs' rest ∧ t.value? depth = some v

/-- Where the entries of an array or object begin: behind the opening bracket, or behind a comma. -/
def EntriesFrom (first : Bool) (cs cs' : List Char) : Prop :=
  if first then cs = cs' else Spaces cs (',' :: cs')

/-- The items of an array that are read end with its bracket, or are spelled up to it. -/
def ItemsRead (depth : Nat) (first : Bool) (cs rest : List Char) (vs : Items) : Prop :=
  Spaces cs (']' :: rest) ∧ vs = .nil ∨
    ∃ cs' ts us, EntriesFrom first cs cs' ∧ Spells (.items ts) cs' rest ∧
      List.Forall₂ (fun t v => Tree.value? depth t = some v) ts us ∧ vs = Items.ofList us

/-- The members of an object that are read end with its brace, or are spelled up to it. -/
def MembersRead (depth : Nat) (first : Bool) (cs rest : List Char)
    (ps : List (String × Json)) : Prop :=
  Spaces cs ('}' :: rest) ∧ ps = [] ∨
    ∃ cs' ms, EntriesFrom first cs cs' ∧ Spells (.members ms) cs' rest ∧
      List.Forall₂ (Tree.Entry depth) ms ps

section Entries

variable {cs cs' rest : List Char} {item : Reader Json} {depth : Nat}

/-- Blanks in front of a list's items are part of them. -/
theorem Spells.items_behind {ts : List Tree} (hspace : Spaces cs cs')
    (h : Spells (.items ts) cs' rest) : Spells (.items ts) cs rest := by
  have hitem : ∀ {t : Tree} {behind : List Char}, Spells (.item t) cs' behind →
      Spells (.item t) cs behind := by
    intro t behind h
    cases h with
    | item hbefore hvalue hbehind => exact .item (hspace.trans hbefore) hvalue hbehind
  cases h with
  | lastItem h => exact .lastItem (hitem h)
  | nextItem h hmore => exact .nextItem (hitem h) hmore

/-- One step of the items' reader: the end of the list, or an item behind the comma it needs. -/
theorem readItems_succ (fuel : Nat) (first : Bool) (cs : List Char) :
    readItems item (fuel + 1) first cs =
      match skipSpace cs with
      | [] => .error (.before .endOfList [])
      | ']' :: rest => .ok (.nil, rest)
      | c :: rest =>
        if first then readEntries item fuel (c :: rest)
        else if c ≠ ',' then .error (.inside .expectedListEnd (c :: rest))
        else match skipSpace rest with
          | [] => .error (.before .endOfValue [])
          | ']' :: rest => .error (.inside .trailingComma (']' :: rest))
          | rest => readEntries item fuel rest :=
  rfl

/-- One step of the members' reader: the end of the object, or a member behind the comma it
needs. -/
theorem readMembers_succ (fuel : Nat) (first : Bool) (cs : List Char) :
    readMembers item (fuel + 1) first cs =
      match skipSpace cs with
      | [] => .error (.before .endOfObject [])
      | '}' :: rest => .ok ([], rest)
      | c :: rest =>
        if first then
          if c = '"' then readMemberEntries item fuel rest
          else .error (.inside .keyNotString (c :: rest))
        else if c ≠ ',' then .error (.inside .expectedObjectEnd (c :: rest))
        else match skipSpace rest with
          | [] => .error (.before .endOfValue [])
          | '"' :: rest => readMemberEntries item fuel rest
          | '}' :: rest => .error (.inside .trailingComma ('}' :: rest))
          | rest => .error (.inside .keyNotString rest) :=
  rfl

/-- An item and what is read behind it are spelled together. -/
theorem items_of_readEntries {fuel : Nat} {vs : Items} (hitem : FindsSpelled depth item)
    (hmore : ∀ {cs rest vs}, readItems item fuel false cs = .ok (vs, rest) →
      ItemsRead depth false cs rest vs)
    (h : readEntries item fuel cs = .ok (vs, rest)) :
    ∃ ts us, Spells (.items ts) cs rest ∧
      List.Forall₂ (fun t v => Tree.value? depth t = some v) ts us ∧ vs = Items.ofList us := by
  rw [readEntries] at h
  split at h
  · cases h
  · next v behind hread =>
    split at h
    · cases h
    · next more after hreadMore =>
      cases h
      obtain ⟨t, start, hbefore, hvalue, hv⟩ := hitem hread
      rcases hmore hreadMore with ⟨hend, rfl⟩ | ⟨next, ts, us, hcomma, hspells, hus, rfl⟩
      · exact ⟨[t], [v], .lastItem (.item hbefore hvalue hend), .cons hv .nil, rfl⟩
      · exact ⟨t :: ts, v :: us, .nextItem (.item hbefore hvalue hcomma) hspells,
          .cons hv hus, rfl⟩

/-- A member, from behind the quote of its key on, and what is read behind it are spelled
together. -/
theorem members_of_readMemberEntries {fuel : Nat} {ps : List (String × Json)}
    (hitem : FindsSpelled depth item)
    (hmore : ∀ {cs rest ps}, readMembers item fuel false cs = .ok (ps, rest) →
      MembersRead depth false cs rest ps)
    (hquote : Spaces cs ('"' :: cs')) (h : readMemberEntries item fuel cs' = .ok (ps, rest)) :
    ∃ ms, Spells (.members ms) cs rest ∧ List.Forall₂ (Tree.Entry depth) ms ps := by
  rw [readMemberEntries] at h
  obtain ⟨⟨key, behindKey⟩, hkey, h⟩ := exists_of_bind_eq_ok h
  obtain ⟨after, hcolon, h⟩ := exists_of_bind_eq_ok h
  obtain ⟨⟨v, behind⟩, hread, h⟩ := exists_of_bind_eq_ok h
  obtain ⟨⟨more, behindMore⟩, hreadMore, h⟩ := exists_of_bind_eq_ok h
  cases h
  obtain ⟨characters, rfl, hcharacters⟩ := chars_of_readText hkey
  obtain ⟨t, start, hbefore, hvalue, hv⟩ := hitem hread
  have hmember : ∀ {out}, Spaces behind out →
      Spells (.member (String.ofList characters) t) cs out := fun hbehind =>
    .member hquote hcharacters (spaces_of_expectColon hcolon) (.item hbefore hvalue hbehind)
  rcases hmore hreadMore with ⟨hend, rfl⟩ | ⟨next, ms, hcomma, hspells, hms⟩
  · exact ⟨_, .lastMember (hmember hend), .cons ⟨rfl, hv⟩ .nil⟩
  · exact ⟨_, .nextMember (hmember hcomma) hspells, .cons ⟨rfl, hv⟩ hms⟩

/-- What is read as the items of a list is spelled by them, when what is read as one item is. -/
theorem itemsRead_of_readItems (hitem : FindsSpelled depth item) {fuel : Nat} {first : Bool}
    {vs : Items} (h : readItems item fuel first cs = .ok (vs, rest)) :
    ItemsRead depth first cs rest vs := by
  -- the fuel counts entries: the induction is on it, with the first entry told apart from the
  -- others
  induction fuel generalizing first cs rest vs with
  | zero => cases h
  | succ fuel ih =>
    rw [readItems_succ] at h
    split at h
    · cases h
    · next hspace =>
      cases h
      exact .inl ⟨spaces_of_skipSpace_eq hspace, rfl⟩
    · next c tail _ hspace =>
      have hbefore := spaces_of_skipSpace_eq hspace
      cases first with
      | true =>
        obtain ⟨ts, us, hspells, hus, rfl⟩ := items_of_readEntries hitem ih h
        exact .inr ⟨cs, ts, us, rfl, hspells.items_behind hbefore, hus, rfl⟩
      | false =>
        by_cases hc : c = ','
        · subst hc
          rw [if_neg Bool.false_ne_true, if_neg (not_not_intro rfl)] at h
          split at h
          · cases h
          · cases h
          · -- behind a comma another entry must follow, so that no bracket may stand there
            obtain ⟨ts, us, hspells, hus, rfl⟩ := items_of_readEntries hitem ih h
            exact .inr ⟨tail, ts, us, hbefore, hspells.items_behind (spaces_skipSpace tail), hus,
              rfl⟩
        · rw [if_neg Bool.false_ne_true, if_pos hc] at h
          cases h

/-- What is read as the members of an object is spelled by them, when what is read as one value
is. -/
theorem membersRead_of_readMembers (hitem : FindsSpelled depth item) {fuel : Nat} {first : Bool}
    {ps : List (String × Json)} (h : readMembers item fuel first cs = .ok (ps, rest)) :
    MembersRead depth first cs rest ps := by
  -- as for items; a member begins with the quotation mark of its name
  induction fuel generalizing first cs rest ps with
  | zero => cases h
  | succ fuel ih =>
    rw [readMembers_succ] at h
    split at h
    · cases h
    · next hspace =>
      cases h
      exact .inl ⟨spaces_of_skipSpace_eq hspace, rfl⟩
    · next c tail _ hspace =>
      have hbefore := spaces_of_skipSpace_eq hspace
      cases first with
      | true =>
        by_cases hc : c = '"'
        · subst hc
          rw [if_pos rfl, if_pos rfl] at h
          obtain ⟨ms, hspells, hms⟩ := members_of_readMemberEntries hitem ih hbefore h
          exact .inr ⟨cs, ms, rfl, hspells, hms⟩
        · rw [if_pos rfl, if_neg hc] at h
          cases h
      | false =>
        by_cases hc : c = ','
        · subst hc
          rw [if_neg Bool.false_ne_true, if_neg (not_not_intro rfl)] at h
          split at h
          · cases h
          · next hquote =>
            obtain ⟨ms, hspells, hms⟩ :=
              members_of_readMemberEntries hitem ih (spaces_of_skipSpace_eq hquote) h
            exact .inr ⟨tail, ms, hbefore, hspells, hms⟩
          · cases h
          · cases h
        · rw [if_neg Bool.false_ne_true, if_pos hc] at h
          cases h

end Entries

/-! ### Values -/

section Values

variable {cs rest : List Char} {v : Json}

/-- What is read behind the blanks: a value without entries, whatever the depth, an array or an
object. -/
theorem readWith_cases {nested : Option (Reader Json)} (h : readWith nested cs = .ok (v, rest)) :
    (∃ t cs', Spaces cs cs' ∧ Spells (.value t) cs' rest ∧ ∀ depth, t.value? depth = some v) ∨
    (∃ item tail vs, nested = some item ∧ Spaces cs ('[' :: tail) ∧
      readItems item (tail.length + 1) true tail = .ok (vs, rest) ∧ v = .arr vs) ∨
    ∃ item tail ps, nested = some item ∧ Spaces cs ('{' :: tail) ∧
      readMembers item (tail.length + 1) true tail = .ok (ps, rest) ∧
        v = .obj (Members.collect ps) := by
  -- numbers come with a sign or without, and are read alike
  have hnumber : ∀ {n : Literal} {behind : List Char}, Spaces cs behind → Numeral n behind rest →
      n.value = .ok v →
      ∃ t cs', Spaces cs cs' ∧ Spells (.value t) cs' rest ∧ ∀ depth, t.value? depth = some v := by
    intro n behind hspace hnumeral hvalue
    exact ⟨.number n, behind, hspace, .number hnumeral,
      fun depth => Tree.value?_number_eq_some_iff.2 hvalue⟩
  rw [readWith] at h
  split at h
  · cases h
  · next c tail hspace =>
    -- the character behind the blanks decides what is read
    have hbefore := spaces_of_skipSpace_eq hspace
    split at h
    · obtain ⟨behind, hword, heq⟩ := exists_of_map_eq_ok h
      cases heq
      obtain rfl := eq_append_of_expectWord hword
      exact .inl ⟨.null, _, hbefore, .null rest, fun depth => by cases depth <;> rfl⟩
    · obtain ⟨behind, hword, heq⟩ := exists_of_map_eq_ok h
      cases heq
      obtain rfl := eq_append_of_expectWord hword
      exact .inl ⟨.bool true, _, hbefore, .boolTrue rest, fun depth => by cases depth <;> rfl⟩
    · obtain ⟨behind, hword, heq⟩ := exists_of_map_eq_ok h
      cases heq
      obtain rfl := eq_append_of_expectWord hword
      exact .inl ⟨.bool false, _, hbefore, .boolFalse rest, fun depth => by cases depth <;> rfl⟩
    · obtain ⟨n, hsign, hmagnitude, hvalue⟩ := exists_of_readNumber h
      exact .inl (hnumber hbefore (.minus hsign hmagnitude) hvalue)
    · obtain ⟨⟨s, behind⟩, htext, heq⟩ := exists_of_map_eq_ok h
      cases heq
      obtain ⟨characters, rfl, hcharacters⟩ := chars_of_readText htext
      exact .inl ⟨.str _, _, hbefore, .str hcharacters, fun depth => Tree.value?_str depth _⟩
    · split at h
      · cases h
      · next item =>
        obtain ⟨⟨vs, behind⟩, hitems, heq⟩ := exists_of_map_eq_ok h
        cases heq
        exact .inr (.inl ⟨item, tail, vs, rfl, hbefore, hitems, rfl⟩)
    · split at h
      · cases h
      · next item =>
        obtain ⟨⟨ps, behind⟩, hmembers, heq⟩ := exists_of_map_eq_ok h
        cases heq
        exact .inr (.inr ⟨item, tail, ps, rfl, hbefore, hmembers, rfl⟩)
    · split at h
      · obtain ⟨n, hsign, hmagnitude, hvalue⟩ := exists_of_readNumber h
        exact .inl (hnumber hbefore (.plain hsign hmagnitude) hvalue)
      · cases h

/-- Every value that is read is spelled by the characters taken for it, at every depth. -/
theorem findsSpelled_readValue (depth : Nat) : FindsSpelled depth (readValue depth) := by
  induction depth with
  | zero =>
    intro cs rest v h
    rcases readWith_cases h with ⟨t, cs', hspace, hspells, hv⟩ | ⟨_, _, _, he, _⟩ | ⟨_, _, _, he, _⟩
    · exact ⟨t, cs', hspace, hspells, hv 0⟩
    · cases he
    · cases he
  | succ depth ih =>
    intro cs rest v h
    rcases readWith_cases h with ⟨t, cs', hspace, hspells, hv⟩ |
      ⟨_, tail, vs, ⟨⟩, hspace, hitems, rfl⟩ | ⟨_, tail, ps, ⟨⟩, hspace, hmembers, rfl⟩
    · exact ⟨t, cs', hspace, hspells, hv _⟩
    · rcases itemsRead_of_readItems ih hitems with ⟨hend, rfl⟩ | ⟨_, ts, us, rfl, hts, hus, rfl⟩
      · exact ⟨.arr [], _, hspace, .emptyList hend, rfl⟩
      · exact ⟨.arr ts, _, hspace, .list hts, Tree.value?_arr_eq_some_iff.2 ⟨us, hus, rfl⟩⟩
    · rcases membersRead_of_readMembers ih hmembers with ⟨hend, rfl⟩ | ⟨_, ms, rfl, hms, hps⟩
      · exact ⟨.obj [], _, hspace, .emptyObject hend, rfl⟩
      · exact ⟨.obj ms, _, hspace, .object hms, Tree.value?_obj_eq_some.2 ⟨ps, hps, rfl⟩⟩

/-- A text is read as a value if and only if it is one of the ways to write the value. -/
theorem parse_eq_ok_iff : parse cs = .ok v ↔ IsSpelling v cs := by
  refine ⟨fun h => ?_, parse_of_isSpelling⟩
  rw [parse] at h
  obtain ⟨⟨w, rest⟩, hread, h⟩ := exists_of_bind_eq_ok h
  obtain ⟨u, hend, h⟩ := exists_of_bind_eq_ok h
  cases h
  obtain ⟨t, cs', hspace, hspells, hv⟩ := findsSpelled_readValue depthLimit hread
  exact ⟨t, .item hspace hspells (spaces_of_expectEnd hend), hv⟩

end Values

end AppShell.Json
