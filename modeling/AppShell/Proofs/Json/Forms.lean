/-
AppShell/Proofs/Json/Forms.lean

What has the form of a JSON value.

A value that is passed over is not read, and so more texts pass than have a
value in `Tree`: a string may escape a surrogate without its partner, and there
is nothing to limit how deep the value nests.  `Formed` is the grammar of these
texts; its rules are those of the standard, which asks for four hexadecimal
digits behind `\u` and for nothing else.

Whatever is passed over has the form of a value (`formed_of_skipValue`).  As for
the values that are read, the bound on the length of the text drives the
induction for nested values, and that on the number of entries the one within an
array or object.
-/
import AppShell.Proofs.Json.Accepting

namespace AppShell.Json

/-! ### The grammar -/

/-- The characters of a string, behind its opening quote and up to the closing one, with any
escapes by number. -/
inductive FormedChars : List Char → List Char → Prop
  | close (rest : List Char) : FormedChars ('"' :: rest) rest
  | plain {c : Char} {cs rest : List Char} :
      0x20 ≤ c.toNat → c ≠ '"' → c ≠ '\\' → FormedChars cs rest → FormedChars (c :: cs) rest
  | letter {l c : Char} {cs rest : List Char} :
      (l, c) ∈ escapeLetters → FormedChars cs rest → FormedChars ('\\' :: l :: cs) rest
  | unit {a b c d : Char} {n : Nat} {cs rest : List Char} :
      unitValue? a b c d = some n → FormedChars cs rest →
      FormedChars ('\\' :: 'u' :: a :: b :: c :: d :: cs) rest

/-- What a formed text is: a value, or one or more entries of an array or object with the closing
bracket behind them. -/
inductive Part where
  | value
  | items
  | members

/-- A formed text in front of `rest`. -/
inductive Formed : Part → List Char → List Char → Prop
  | null (rest : List Char) : Formed .value ('n' :: 'u' :: 'l' :: 'l' :: rest) rest
  | boolTrue (rest : List Char) : Formed .value ('t' :: 'r' :: 'u' :: 'e' :: rest) rest
  | boolFalse (rest : List Char) : Formed .value ('f' :: 'a' :: 'l' :: 's' :: 'e' :: rest) rest
  | number {n : Literal} {cs rest : List Char} : Numeral n cs rest → Formed .value cs rest
  | str {cs rest : List Char} : FormedChars cs rest → Formed .value ('"' :: cs) rest
  | emptyList {cs rest : List Char} :
      Spaces cs (']' :: rest) → Formed .value ('[' :: cs) rest
  | list {cs rest : List Char} : Formed .items cs rest → Formed .value ('[' :: cs) rest
  | emptyObject {cs rest : List Char} :
      Spaces cs ('}' :: rest) → Formed .value ('{' :: cs) rest
  | object {cs rest : List Char} : Formed .members cs rest → Formed .value ('{' :: cs) rest
  | lastItem {cs cs' cs'' rest : List Char} :
      Spaces cs cs' → Formed .value cs' cs'' → Spaces cs'' (']' :: rest) → Formed .items cs rest
  | nextItem {cs cs' cs'' more rest : List Char} :
      Spaces cs cs' → Formed .value cs' cs'' → Spaces cs'' (',' :: more) →
      Formed .items more rest → Formed .items cs rest
  | lastMember {cs key behind after cs' cs'' rest : List Char} :
      Spaces cs ('"' :: key) → FormedChars key behind → Spaces behind (':' :: after) →
      Spaces after cs' → Formed .value cs' cs'' → Spaces cs'' ('}' :: rest) →
      Formed .members cs rest
  | nextMember {cs key behind after cs' cs'' more rest : List Char} :
      Spaces cs ('"' :: key) → FormedChars key behind → Spaces behind (':' :: after) →
      Spaces after cs' → Formed .value cs' cs'' → Spaces cs'' (',' :: more) →
      Formed .members more rest → Formed .members cs rest

/-! ### Strings and numbers -/

section Tokens

variable {cs rest : List Char}

/-- An escape that is skipped is formed. -/
theorem formedChars_of_skipEscape {behind : List Char} (h : skipEscape cs = .ok behind)
    (hrest : FormedChars behind rest) : FormedChars ('\\' :: cs) rest := by
  unfold skipEscape at h
  split at h
  · cases h
  · split at h
    · next hu =>
      subst hu
      obtain ⟨⟨n, after⟩, hunit, heq⟩ := exists_of_map_eq_ok h
      cases heq
      obtain ⟨a, b, c, d, rfl, hn⟩ := exists_of_readUnit hunit
      exact .unit hn hrest
    · split at h
      · next hletter =>
        cases h
        exact .letter (mem_of_letterEscape? hletter) hrest
      · cases h

/-- What is skipped as the inside of a string is formed as one. -/
theorem formedChars_of_skipChars (h : skipChars cs = .ok rest) : FormedChars cs rest := by
  fun_induction skipChars cs generalizing rest with
  | case1 => cases h
  | case2 => cases h; exact .close _
  | case3 => cases h
  | case4 cs behind hescape ih => exact formedChars_of_skipEscape hescape (ih h)
  | case5 => cases h
  | case6 c cs hquote hescape hcontrol ih =>
    exact .plain (Nat.not_lt.1 hcontrol) hquote hescape (ih h)

/-- What is skipped as a number is one. -/
theorem magnitude_of_skipNumber (h : skipNumber cs = .ok rest) (negative : Bool) :
    ∃ n : Literal, n.negative = negative ∧ Magnitude n cs rest := by
  obtain ⟨⟨n, behind⟩, hscan, heq⟩ := exists_of_map_eq_ok h
  cases heq
  obtain ⟨-, hwhole, hfraction, hexponent⟩ := magnitude_of_scanNumber hscan
  exact ⟨{ n with negative := negative }, rfl, .parts hwhole hfraction hexponent⟩

end Tokens

/-! ### Entries -/

/-- A skipper passes over what has the form of a value behind the blanks. -/
def Skipper.Sound (item : Skipper) : Prop :=
  ∀ {cs rest}, item cs = .ok rest → ∃ cs', Spaces cs cs' ∧ Formed .value cs' rest

section Entries

variable {item : Skipper} {fuel : Nat} {first : Bool} {cs cs' rest : List Char}

theorem Formed.items_behind (hspace : Spaces cs cs') (h : Formed .items cs' rest) :
    Formed .items cs rest := by
  cases h with
  | lastItem hbefore hvalue hend => exact .lastItem (hspace.trans hbefore) hvalue hend
  | nextItem hbefore hvalue hcomma hmore =>
    exact .nextItem (hspace.trans hbefore) hvalue hcomma hmore

theorem Formed.members_behind (hspace : Spaces cs cs') (h : Formed .members cs' rest) :
    Formed .members cs rest := by
  cases h with
  | lastMember hquote hkey hcolon hbefore hvalue hend =>
    exact .lastMember (hspace.trans hquote) hkey hcolon hbefore hvalue hend
  | nextMember hquote hkey hcolon hbefore hvalue hcomma hmore =>
    exact .nextMember (hspace.trans hquote) hkey hcolon hbefore hvalue hcomma hmore

/-- Entries that are passed over end with their bracket, or are formed up to it. -/
def EntriesFormed (part : Part) (close : Char) (first : Bool) (cs rest : List Char) : Prop :=
  Spaces cs (close :: rest) ∨ ∃ cs', EntriesFrom first cs cs' ∧ Formed part cs' rest

/-- The name and the colon of a member are passed over, and then its value. -/
theorem exists_of_skipMember (hitem : item.Sound) (h : skipMember item cs = .ok rest) :
    ∃ key behind after cs', Spaces cs ('"' :: key) ∧ FormedChars key behind ∧
      Spaces behind (':' :: after) ∧ Spaces after cs' ∧ Formed .value cs' rest := by
  rw [skipMember] at h
  split at h
  · cases h
  · next key hspace =>
    obtain ⟨after, h, hvalue⟩ := exists_of_bind_eq_ok h
    obtain ⟨behind, hkey, hcolon⟩ := exists_of_bind_eq_ok h
    obtain ⟨cs', hbefore, hformed⟩ := hitem hvalue
    exact ⟨key, behind, after, cs', spaces_of_skipSpace_eq hspace, formedChars_of_skipChars hkey,
      spaces_of_expectColon hcolon, hbefore, hformed⟩
  · cases h

/-- What is skipped as the items of a list is formed as such, when what is skipped as one item
is. -/
theorem entriesFormed_of_skipItems (hitem : item.Sound)
    (h : skipItems item fuel first cs = .ok rest) : EntriesFormed .items ']' first cs rest := by
  induction fuel generalizing first cs with
  | zero => cases h
  | succ fuel ih =>
    -- an item is followed by the bracket or by a comma, whatever stood in front of it
    have hentry : ∀ {start : List Char},
        (item start >>= skipItems item fuel false) = .ok rest → Formed .items start rest := by
      intro start h
      obtain ⟨behind, hread, hmore⟩ := exists_of_bind_eq_ok h
      obtain ⟨cs', hbefore, hvalue⟩ := hitem hread
      rcases ih hmore with hend | ⟨next, hcomma, hformed⟩
      · exact .lastItem hbefore hvalue hend
      · exact .nextItem hbefore hvalue hcomma hformed
    rw [skipItems] at h
    split at h
    · cases h
    · next hspace =>
      cases h
      exact .inl (spaces_of_skipSpace_eq hspace)
    · next c tail _ hspace =>
      have hbefore := spaces_of_skipSpace_eq hspace
      cases first with
      | true => exact .inr ⟨cs, rfl, (hentry h).items_behind hbefore⟩
      | false =>
        rw [if_neg Bool.false_ne_true] at h
        split at h
        · next hc =>
          subst hc
          exact .inr ⟨tail, hbefore, hentry h⟩
        · cases h

/-- What is skipped as the members of an object is formed as such, when what is skipped as one value
is. -/
theorem entriesFormed_of_skipMembers (hitem : item.Sound)
    (h : skipMembers item fuel first cs = .ok rest) :
    EntriesFormed .members '}' first cs rest := by
  induction fuel generalizing first cs with
  | zero => cases h
  | succ fuel ih =>
    -- as for items, with a name and a colon in front of each value
    have hentry : ∀ {start : List Char},
        (skipMember item start >>= skipMembers item fuel false) = .ok rest →
          Formed .members start rest := by
      intro start h
      obtain ⟨behind, hread, hmore⟩ := exists_of_bind_eq_ok h
      obtain ⟨key, inside, after, cs', hquote, hkey, hcolon, hbefore, hvalue⟩ :=
        exists_of_skipMember hitem hread
      rcases ih hmore with hend | ⟨next, hcomma, hformed⟩
      · exact .lastMember hquote hkey hcolon hbefore hvalue hend
      · exact .nextMember hquote hkey hcolon hbefore hvalue hcomma hformed
    rw [skipMembers] at h
    split at h
    · cases h
    · next hspace =>
      cases h
      exact .inl (spaces_of_skipSpace_eq hspace)
    · next c tail _ hspace =>
      have hbefore := spaces_of_skipSpace_eq hspace
      cases first with
      | true => exact .inr ⟨cs, rfl, (hentry h).members_behind hbefore⟩
      | false =>
        rw [if_neg Bool.false_ne_true] at h
        split at h
        · next hc =>
          subst hc
          exact .inr ⟨tail, hbefore, hentry h⟩
        · cases h

end Entries

/-! ### Values -/

section Values

variable {cs rest : List Char}

/-- What is skipped as a value is formed as one, behind blanks. -/
theorem formed_of_skipWith {item : Skipper} {fuel : Nat} (hitem : item.Sound)
    (h : skipWith fuel item cs = .ok rest) : ∃ cs', Spaces cs cs' ∧ Formed .value cs' rest := by
  rw [skipWith] at h
  split at h
  · cases h
  · next c tail hspace =>
    refine ⟨c :: tail, spaces_of_skipSpace_eq hspace, ?_⟩
    -- the first character tells which of the forms it can be
    split at h
    · rw [eq_append_of_expectWord h]
      exact .null rest
    · rw [eq_append_of_expectWord h]
      exact .boolTrue rest
    · rw [eq_append_of_expectWord h]
      exact .boolFalse rest
    · obtain ⟨n, hsign, hmagnitude⟩ := magnitude_of_skipNumber h true
      exact .number (.minus hsign hmagnitude)
    · exact .str (formedChars_of_skipChars h)
    · rcases entriesFormed_of_skipItems hitem h with hend | ⟨_, rfl, hitems⟩
      · exact .emptyList hend
      · exact .list hitems
    · rcases entriesFormed_of_skipMembers hitem h with hend | ⟨_, rfl, hmembers⟩
      · exact .emptyObject hend
      · exact .object hmembers
    · split at h
      · obtain ⟨n, hsign, hmagnitude⟩ := magnitude_of_skipNumber h false
        exact .number (.plain hsign hmagnitude)
      · cases h

/-- What is skipped is formed at every depth. -/
theorem sound_skipNested (bound : Nat) : (skipNested bound).Sound := by
  induction bound with
  | zero =>
    intro cs rest h
    cases h
  | succ bound ih => exact fun h => formed_of_skipWith ih h

/-- Whatever is passed over has the form of a value. -/
theorem formed_of_skipValue (h : skipValue cs = .ok rest) :
    ∃ cs', Spaces cs cs' ∧ Formed .value cs' rest :=
  sound_skipNested _ h

end Values

end AppShell.Json
