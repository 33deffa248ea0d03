/-
AppShell/Proofs/Markup/Reading.lean

Markup that is read back from its text.

The reader knows nothing of the writer.  A scanner goes over the characters one
by one and finds the tags, with their attributes, and the text between them
(`tokens?`); a builder makes elements of the tags and undoes the entities in the
text (`nodes?`).

Both are folds, so what they do with a text is put together of what they do with
its parts.  Between two tags the scanner holds the text that it has seen since
the last one, which is why two pieces of text must not follow each other; with
names and attributes that hold no character of the syntax, this is all that is
asked of the pieces (`Tidy`).  No condition is put on their texts: an escaped text
has none of the characters that start or end a tag.

The main statements are `tokens?_writeAll` and `nodes?_writeAll`.
-/
import AppShell.Markup.Node

namespace AppShell.Markup

/-! ### The scanner -/

/-- A tag, or the text between two tags as it is written. -/
inductive Token where
  | start (name : String) (attributes : List (String × String))
  | stop (name : String)
  | text (written : List Char)
deriving DecidableEq

/-- Where in the markup a scanner is, with what it has seen of the current part. -/
inductive Mode where
  | text (written : List Char)
  | opened
  | stopName (name : List Char)
  | startName (name : List Char)
  | blank (name : List Char) (attributes : List (String × String))
  | key (name : List Char) (attributes : List (String × String)) (key : List Char)
  | equals (name : List Char) (attributes : List (String × String)) (key : List Char)
  | value (name : List Char) (attributes : List (String × String)) (key value : List Char)
  | valued (name : List Char) (attributes : List (String × String))

/-- A scanner, with the tokens that it has found. -/
structure Scanner where
  found : List Token
  mode : Mode

/-- Whether a character may stand in the name of an element or attribute. -/
def isNameChar (c : Char) : Bool :=
  c.isAlphanum || c == '-'

/-- The token of a text, unless it is empty. -/
def textToken (written : List Char) : List Token :=
  if written.isEmpty then [] else [.text written]

/-- What a scanner is behind one more character, unless that is out of place. -/
def Scanner.step (s : Scanner) (c : Char) : Option Scanner :=
  match s.mode with
  | .text written =>
    if c = '<' then some ⟨s.found ++ textToken written, .opened⟩
    else some ⟨s.found, .text (written ++ [c])⟩
  | .opened =>
    if c = '/' then some ⟨s.found, .stopName []⟩
    else if isNameChar c then some ⟨s.found, .startName [c]⟩
    else none
  | .stopName name =>
    if c = '>' then some ⟨s.found ++ [.stop (String.ofList name)], .text []⟩
    else if isNameChar c then some ⟨s.found, .stopName (name ++ [c])⟩
    else none
  | .startName name =>
    if c = '>' then some ⟨s.found ++ [.start (String.ofList name) []], .text []⟩
    else if c = ' ' then some ⟨s.found, .blank name []⟩
    else if isNameChar c then some ⟨s.found, .startName (name ++ [c])⟩
    else none
  | .blank name attributes =>
    if isNameChar c then some ⟨s.found, .key name attributes [c]⟩ else none
  | .key name attributes key =>
    if c = '=' then some ⟨s.found, .equals name attributes key⟩
    else if isNameChar c then some ⟨s.found, .key name attributes (key ++ [c])⟩
    else none
  | .equals name attributes key =>
    if c = '"' then some ⟨s.found, .value name attributes key []⟩ else none
  | .value name attributes key value =>
    if c = '"' then
      some ⟨s.found, .valued name (attributes ++ [(String.ofList key, String.ofList value)])⟩
    else some ⟨s.found, .value name attributes key (value ++ [c])⟩
  | .valued name attributes =>
    if c = '>' then some ⟨s.found ++ [.start (String.ofList name) attributes], .text []⟩
    else if c = ' ' then some ⟨s.found, .blank name attributes⟩
    else none

/-- The tokens that a scanner ends with, unless it is within a tag. -/
def Scanner.tokens? (s : Scanner) : Option (List Token) :=
  match s.mode with
  | .text written => some (s.found ++ textToken written)
  | _ => none

/-- The tokens of a text. -/
def tokens? (cs : List Char) : Option (List Token) :=
  (cs.foldlM Scanner.step ⟨[], .text []⟩).bind Scanner.tokens?

/-! ### The builder -/

/-- A text without its entities. -/
def unescape : List Char → List Char
  | '&' :: 'a' :: 'm' :: 'p' :: ';' :: rest => '&' :: unescape rest
  | '&' :: 'l' :: 't' :: ';' :: rest => '<' :: unescape rest
  | '&' :: 'g' :: 't' :: ';' :: rest => '>' :: unescape rest
  | c :: rest => c :: unescape rest
  | [] => []

/-- The names of the elements that have no content and no closing tag. -/
def voidNames : List String :=
  ["area", "base", "br", "col", "embed", "hr", "img", "input", "link", "meta", "source", "track",
    "wbr"]

/-- An element that was not ended yet, with the pieces before it. -/
structure Unended where
  name : String
  attributes : List (String × String)
  before : List Node

/-- The elements around the current place, from the inside out, and the pieces before it. -/
structure Builder where
  around : List Unended
  here : List Node

/-- What a builder is behind one more token, unless that ends no element. -/
def Builder.step (b : Builder) : Token → Option Builder
  | .text written => some ⟨b.around, b.here ++ [.text (String.ofList (unescape written))]⟩
  | .start name attributes =>
    if voidNames.contains name then some ⟨b.around, b.here ++ [.void name attributes]⟩
    else some ⟨⟨name, attributes, b.here⟩ :: b.around, []⟩
  | .stop name =>
    match b.around with
    | [] => none
    | e :: around =>
      if e.name = name then some ⟨around, e.before ++ [.element name e.attributes b.here]⟩
      else none

/-- The pieces that a builder ends with, if all elements were ended. -/
def Builder.nodes? (b : Builder) : Option (List Node) :=
  if b.around.isEmpty then some b.here else none

/-- The pieces of markup in a text. -/
def nodes? (cs : List Char) : Option (List Node) :=
  (tokens? cs).bind fun ts => (ts.foldlM Builder.step ⟨[], []⟩).bind Builder.nodes?

/-! ### Pieces that can be read back -/

/-- A name of letters, digits and hyphens. -/
def IsName (name : String) : Prop :=
  name.toList ≠ [] ∧ name.toList.all isNameChar = true

instance (name : String) : Decidable (IsName name) :=
  inferInstanceAs (Decidable (_ ∧ _))

/-- Attributes whose values hold neither a quote nor the character that starts an entity. -/
def TidyAttributes (attributes : List (String × String)) : Prop :=
  ∀ a ∈ attributes, IsName a.1 ∧ '"' ∉ a.2.toList ∧ '&' ∉ a.2.toList

instance (attributes : List (String × String)) : Decidable (TidyAttributes attributes) :=
  inferInstanceAs (Decidable (∀ a ∈ attributes, _))

/-- Whether a piece is a text. -/
def Node.isText : Node → Bool
  | .text _ => true
  | _ => false

mutual
/-- A piece whose tags can be told from the text. -/
def Node.Tidy : Node → Prop
  | .text _ => True
  | .element name attributes children =>
    (IsName name ∧ name ∉ voidNames) ∧ TidyAttributes attributes ∧ TidyAll false children
  | .void name attributes => (IsName name ∧ name ∈ voidNames) ∧ TidyAttributes attributes
/-- Pieces of this kind of which no two texts follow each other; the flag is set behind a text. -/
def TidyAll : Bool → List Node → Prop
  | _, [] => True
  | behindText, n :: ns =>
    n.Tidy ∧ (behindText && n.isText) = false ∧ TidyAll n.isText ns
end

mutual
/-- The tokens of a piece. -/
def Node.tokens : Node → List Token
  | .text content => [.text (escapeText content)]
  | .element name attributes children =>
    .start name attributes :: tokensAll children ++ [.stop name]
  | .void name attributes => [.start name attributes]
/-- The tokens of several pieces. -/
def tokensAll : List Node → List Token
  | [] => []
  | n :: ns => n.tokens ++ tokensAll ns
end

/-- A text as it is shown: an empty one as a blank. -/
def shownText (s : String) : String :=
  if s.toList.isEmpty then " " else s

mutual
/-- A piece as it is shown. -/
def Node.shown : Node → Node
  | .text content => .text (shownText content)
  | .element name attributes children => .element name attributes (shownAll children)
  | .void name attributes => .void name attributes
/-- Several pieces as they are shown. -/
def shownAll : List Node → List Node
  | [] => []
  | n :: ns => n.shown :: shownAll ns
end

/-! ### Parts of a text are scanned -/

/-- A scanner that goes over some characters is the other one behind them. -/
def Scans (s : Scanner) (cs : List Char) (s' : Scanner) : Prop :=
  cs.foldlM Scanner.step s = some s'

namespace Scans

variable {s s' s'' : Scanner} {cs ds : List Char} {c : Char}

theorem nil (s : Scanner) : Scans s [] s := rfl

theorem cons (h : s.step c = some s') (h' : Scans s' cs s'') : Scans s (c :: cs) s'' := by
  rw [Scans, List.foldlM_cons, h]
  exact h'

/-- Two texts are scanned one after the other. -/
theorem append (h : Scans s cs s') (h' : Scans s' ds s'') : Scans s (cs ++ ds) s'' := by
  rw [Scans, List.foldlM_append, show cs.foldlM Scanner.step s = some s' from h]
  exact h'

/-- Characters that only add to the current part. -/
theorem run (mode : List Char → Mode) {found : List Token}
    (hstep : ∀ seen, ∀ c ∈ cs,
      Scanner.step ⟨found, mode seen⟩ c = some ⟨found, mode (seen ++ [c])⟩) (seen : List Char) :
    Scans ⟨found, mode seen⟩ cs ⟨found, mode (seen ++ cs)⟩ := by
  induction cs generalizing seen with
  | nil =>
    rw [List.append_nil]
    exact nil _
  | cons c cs ih =>
    have hmore := ih (fun seen c hc => hstep seen c (.tail _ hc)) (seen ++ [c])
    rw [List.append_assoc] at hmore
    exact cons (hstep seen c (.head _)) hmore

end Scans

section Parts

variable {found : List Token} {name : List Char} {attributes : List (String × String)}

/-- Characters of names are told apart from all that may follow a name. -/
theorem isNameChar_ne {c d : Char} (hc : isNameChar c = true) (hd : isNameChar d = false) :
    c ≠ d := by
  rintro rfl
  rw [hc] at hd
  cases hd

/-- A text without an opening bracket is taken up as it stands. -/
theorem scans_text {cs : List Char} (h : '<' ∉ cs) (written : List Char) :
    Scans ⟨found, .text written⟩ cs ⟨found, .text (written ++ cs)⟩ := by
  refine Scans.run Mode.text (fun seen c hc => if_neg ?_) written
  rintro rfl
  exact h hc

/-- A name, the first character of which may be seen in another place than the others. -/
theorem scans_name (mode : List Char → Mode) {before : Mode} {name : String} (h : IsName name)
    (hfirst : ∀ c, isNameChar c = true →
      Scanner.step ⟨found, before⟩ c = some ⟨found, mode [c]⟩)
    (hmore : ∀ seen c, isNameChar c = true →
      Scanner.step ⟨found, mode seen⟩ c = some ⟨found, mode (seen ++ [c])⟩) :
    Scans ⟨found, before⟩ name.toList ⟨found, mode name.toList⟩ := by
  obtain ⟨hne, hall⟩ := h
  obtain ⟨c, cs, hcs⟩ := List.exists_cons_of_ne_nil hne
  rw [hcs, List.all_cons, Bool.and_eq_true, List.all_eq_true] at hall
  rw [hcs]
  exact .cons (hfirst c hall.1) (Scans.run mode (fun seen d hd => hmore seen d (hall.2 d hd)) [c])

/-- One attribute, from the blank before it to its closing quote. -/
theorem scans_attribute {mode : Mode} {a : String × String} (hname : IsName a.1)
    (hvalue : '"' ∉ a.2.toList)
    (hblank : Scanner.step ⟨found, mode⟩ ' ' = some ⟨found, .blank name attributes⟩) :
    Scans ⟨found, mode⟩ (' ' :: a.1.toList ++ '=' :: '"' :: a.2.toList ++ ['"'])
      ⟨found, .valued name (attributes ++ [a])⟩ := by
  obtain ⟨key, value⟩ := a
  -- the name ends at the equals sign, which stands in no name, and the value at its closing quote
  have hkey : Scans ⟨found, .blank name attributes⟩ key.toList
      ⟨found, .key name attributes key.toList⟩ :=
    scans_name (Mode.key name attributes) hname (fun c hc => if_pos hc)
      fun seen c hc => (if_neg (isNameChar_ne hc rfl)).trans (if_pos hc)
  have hvalues : Scans ⟨found, .value name attributes key.toList []⟩ value.toList
      ⟨found, .value name attributes key.toList value.toList⟩ := by
    refine Scans.run (Mode.value name attributes key.toList) (fun seen d hd => if_neg ?_) []
    rintro rfl
    exact hvalue hd
  have hclose : Scanner.step ⟨found, .value name attributes key.toList value.toList⟩ '"' =
      some ⟨found, .valued name (attributes ++ [(key, value)])⟩ := by
    show some (Scanner.mk found (.valued name
      (attributes ++ [(String.ofList key.toList, String.ofList value.toList)]))) = _
    rw [String.ofList_toList, String.ofList_toList]
  rw [List.append_assoc]
  exact (Scans.cons hblank hkey).append
    (.cons rfl (.cons rfl (hvalues.append (.cons hclose (.nil _)))))

/-- Attributes are scanned as they are written, each behind the one before it. -/
theorem scans_attributes {more : List (String × String)} (h : TidyAttributes more) :
    Scans ⟨found, .valued name attributes⟩ (writeAttributes more)
      ⟨found, .valued name (attributes ++ more)⟩ := by
  induction more generalizing attributes with
  | nil =>
    rw [List.append_nil]
    exact .nil _
  | cons a more ih =>
    obtain ⟨hname, hvalue, -⟩ := h a (.head _)
    have hmore : Scans ⟨found, .valued name (attributes ++ [a])⟩ (writeAttributes more)
        ⟨found, .valued name (attributes ++ [a] ++ more)⟩ := ih fun b hb => h b (.tail _ hb)
    rw [List.append_assoc] at hmore
    exact (scans_attribute hname hvalue rfl).append hmore

/-- An opening tag ends the text before it and is found with its name and attributes. -/
theorem scans_openTag {name : String} (hname : IsName name) (h : TidyAttributes attributes)
    (written : List Char) :
    Scans ⟨found, .text written⟩ (openTag name attributes)
      ⟨found ++ textToken written ++ [.start name attributes], .text []⟩ := by
  have hnamed : Scans ⟨found ++ textToken written, .opened⟩ name.toList
      ⟨found ++ textToken written, .startName name.toList⟩ :=
    scans_name Mode.startName hname
      (fun c hc => (if_neg (isNameChar_ne hc rfl)).trans (if_pos hc))
      fun seen c hc => (if_neg (isNameChar_ne hc rfl)).trans
        ((if_neg (isNameChar_ne hc rfl)).trans (if_pos hc))
  rw [openTag, List.append_assoc]
  refine Scans.append (.cons rfl hnamed) ?_
  cases attributes with
  | nil =>
    refine .cons ?_ (.nil _)
    show some (Scanner.mk (_ ++ [Token.start (String.ofList name.toList) []]) _) = _
    rw [String.ofList_toList]
  | cons a more =>
    -- the first attribute follows the name, and each of the others a quote
    obtain ⟨hkey, hvalue, -⟩ := h a (.head _)
    have hmore : Scans ⟨found ++ textToken written, .valued name.toList ([] ++ [a])⟩
        (writeAttributes more) ⟨found ++ textToken written, .valued name.toList (a :: more)⟩ :=
      scans_attributes fun b hb => h b (.tail _ hb)
    refine Scans.append (Scans.append (scans_attribute hkey hvalue rfl) hmore) (.cons ?_ (.nil _))
    show some (Scanner.mk (_ ++ [Token.start (String.ofList name.toList) (a :: more)]) _) = _
    rw [String.ofList_toList]

/-- A closing tag ends the text before it and is found with its name. -/
theorem scans_closeTag {name : String} (hname : IsName name) (written : List Char) :
    Scans ⟨found, .text written⟩ (closeTag name)
      ⟨found ++ textToken written ++ [.stop name], .text []⟩ := by
  have hstep : ∀ seen c, isNameChar c = true →
      Scanner.step ⟨found ++ textToken written, .stopName seen⟩ c =
        some ⟨found ++ textToken written, .stopName (seen ++ [c])⟩ := fun seen c hc =>
    (if_neg (isNameChar_ne hc rfl)).trans (if_pos hc)
  have hnamed := scans_name Mode.stopName hname (hstep []) hstep
  refine .cons rfl (.cons rfl (hnamed.append (.cons ?_ (.nil _))))
  show some (Scanner.mk (_ ++ [Token.stop (String.ofList name.toList)]) _) = _
  rw [String.ofList_toList]

end Parts

/-! ### Texts -/

/-- All but three characters are written as they are. -/
theorem escapeChar_of_ne {c : Char} (hand : c ≠ '&') (hless : c ≠ '<') (hgreater : c ≠ '>') :
    escapeChar c = [c] := by
  unfold escapeChar
  split
  · exact absurd rfl hand
  · exact absurd rfl hless
  · exact absurd rfl hgreater
  · rfl

/-- All but one character are read as they are. -/
theorem unescape_cons {c : Char} (h : c ≠ '&') (cs : List Char) :
    unescape (c :: cs) = c :: unescape cs := by
  rw [unescape]
  all_goals
    rintro rest ⟨⟩
    exact absurd rfl h

/-- Characters that are escaped one by one are read back. -/
theorem unescape_flatMap (cs : List Char) : unescape (cs.flatMap escapeChar) = cs := by
  induction cs with
  | nil => rfl
  | cons c cs ih =>
    rw [List.flatMap_cons]
    by_cases hand : c = '&'
    · subst hand
      exact congrArg _ ih
    by_cases hless : c = '<'
    · subst hless
      exact congrArg _ ih
    by_cases hgreater : c = '>'
    · subst hgreater
      exact congrArg _ ih
    rw [escapeChar_of_ne hand hless hgreater, List.singleton_append, unescape_cons hand, ih]

/-- No tag starts in an escaped text. -/
theorem not_mem_escapeText (s : String) : '<' ∉ escapeText s := by
  rw [escapeText]
  split
  · decide
  · intro h
    obtain ⟨c, -, hc⟩ := List.mem_flatMap.1 h
    by_cases hand : c = '&'
    · subst hand
      revert hc
      decide
    by_cases hless : c = '<'
    · subst hless
      revert hc
      decide
    by_cases hgreater : c = '>'
    · subst hgreater
      revert hc
      decide
    rw [escapeChar_of_ne hand hless hgreater, List.mem_singleton] at hc
    exact hless hc.symm

/-- What is written of a text is never empty, so that a text leaves a token behind. -/
theorem escapeText_ne_nil (s : String) : escapeText s ≠ [] := by
  rw [escapeText]
  split
  · decide
  · next h =>
    intro hnil
    refine h ?_
    rw [List.flatMap_eq_nil_iff] at hnil
    cases hs : s.toList with
    | nil => rfl
    | cons c cs =>
      have hc := hnil c (hs ▸ List.mem_cons_self)
      unfold escapeChar at hc
      split at hc <;> cases hc

/-- What is written for a text is read as what is shown for it. -/
theorem unescape_escapeText (s : String) :
    String.ofList (unescape (escapeText s)) = shownText s := by
  rw [escapeText, shownText]
  split
  · rfl
  · rw [unescape_flatMap, String.ofList_toList]

/-! ### Pieces -/

/-- Between two tags: the tokens so far, the last of which is the text that is seen. -/
def Scanner.Between (s : Scanner) (ts : List Token) (behindText : Bool) : Prop :=
  ∃ found written, s = ⟨found, .text written⟩ ∧ found ++ textToken written = ts ∧
    (behindText = false → written = [])

/-- A tag is found behind the text before it. -/
theorem Scanner.Between.tag {s : Scanner} {ts : List Token} {t : Token} {cs : List Char}
    {b : Bool} (h : s.Between ts b) (hscan : ∀ found written, Scans ⟨found, .text written⟩ cs
      ⟨found ++ textToken written ++ [t], .text []⟩) :
    ∃ s', Scans s cs s' ∧ s'.Between (ts ++ [t]) false := by
  obtain ⟨found, written, rfl, rfl, -⟩ := h
  exact ⟨_, hscan found written, _, [], rfl, List.append_nil _, fun _ => rfl⟩

mutual
/-- What is written of a piece is scanned as its tokens.  Two texts must not meet, since they would
be scanned as one. -/
theorem Node.exists_scans {s : Scanner} {ts : List Token} {b : Bool} (n : Node) (h : n.Tidy)
    (hb : (b && n.isText) = false) (hs : s.Between ts b) :
    ∃ s', Scans s n.write s' ∧ s'.Between (ts ++ n.tokens) n.isText := by
  cases n with
  | text content =>
    obtain ⟨found, written, rfl, rfl, hwritten⟩ := hs
    -- no text stands in front, so that the scanner begins a new one here
    obtain rfl := hwritten (by simpa [Node.isText] using hb)
    refine ⟨_, scans_text (not_mem_escapeText content) [], found, escapeText content, rfl,
      ?_, nofun⟩
    rw [textToken, if_neg (by simpa using escapeText_ne_nil content)]
    simp [textToken, Node.tokens]
  | element name attributes children =>
    obtain ⟨⟨hname, -⟩, hattributes, hchildren⟩ := h
    -- the tag that opens, what is inside, and the tag that closes are scanned one after the other
    obtain ⟨s₁, hopen, hs₁⟩ := hs.tag fun found written => scans_openTag hname hattributes written
    obtain ⟨s₂, b₂, hinside, hs₂⟩ := exists_scansAll children hchildren hs₁
    obtain ⟨s₃, hclose, hs₃⟩ := hs₂.tag fun found written => scans_closeTag hname written
    refine ⟨s₃, (hopen.append hinside).append hclose, ?_⟩
    simpa [Node.tokens, Node.isText] using hs₃
  | void name attributes =>
    obtain ⟨⟨hname, -⟩, hattributes⟩ := h
    exact hs.tag fun found written => scans_openTag hname hattributes written
/-- So it is for pieces in a row. -/
theorem exists_scansAll {s : Scanner} {ts : List Token} {b : Bool} (ns : List Node)
    (h : TidyAll b ns) (hs : s.Between ts b) :
    ∃ s' b', Scans s (writeAll ns) s' ∧ s'.Between (ts ++ tokensAll ns) b' := by
  cases ns with
  | nil => exact ⟨s, b, .nil s, by rwa [tokensAll, List.append_nil]⟩
  | cons n ns =>
    obtain ⟨hn, hb, hns⟩ := h
    obtain ⟨s₁, hfirst, hs₁⟩ := n.exists_scans hn hb hs
    obtain ⟨s₂, b₂, hmore, hs₂⟩ := exists_scansAll ns hns hs₁
    exact ⟨s₂, b₂, hfirst.append hmore, by rwa [tokensAll, ← List.append_assoc]⟩
end

/-- The tokens of tidy pieces are found in their text. -/
theorem tokens?_writeAll {ns : List Node} (h : TidyAll false ns) :
    tokens? (writeAll ns) = some (tokensAll ns) := by
  have hstart : Scanner.Between ⟨[], .text []⟩ [] false := ⟨[], [], rfl, rfl, fun _ => rfl⟩
  obtain ⟨s, b, hscan, found, written, rfl, htokens, -⟩ := exists_scansAll ns h hstart
  rw [tokens?, show (writeAll ns).foldlM Scanner.step _ = _ from hscan]
  exact congrArg some htokens

/-! ### Elements -/

/-- A builder that goes over some tokens is the other one behind them. -/
def Builds (b : Builder) (ts : List Token) (b' : Builder) : Prop :=
  ts.foldlM Builder.step b = some b'

namespace Builds

variable {b b' b'' : Builder} {ts us : List Token} {t : Token}

theorem single (h : b.step t = some b') : Builds b [t] b' := by
  rw [Builds, List.foldlM_cons, h]
  rfl

/-- Tokens in two stretches are built one after the other. -/
theorem append (h : Builds b ts b') (h' : Builds b' us b'') : Builds b (ts ++ us) b'' := by
  rw [Builds, List.foldlM_append, show ts.foldlM Builder.step b = some b' from h]
  exact h'

end Builds

mutual
/-- The tokens of a piece build the piece that is shown. -/
theorem Node.builds {around : List Unended} {here : List Node} (n : Node) (h : n.Tidy) :
    Builds ⟨around, here⟩ n.tokens ⟨around, here ++ [n.shown]⟩ := by
  cases n with
  | text content =>
    refine .single ?_
    show some (Builder.mk around
      (here ++ [Node.text (String.ofList (unescape (escapeText content)))])) = _
    rw [unescape_escapeText]
    rfl
  | element name attributes children =>
    obtain ⟨⟨-, hname⟩, -, hchildren⟩ := h
    -- the children are built inside the unended element, and its own tag ends it
    have hopen : Builder.step ⟨around, here⟩ (.start name attributes) =
        some ⟨⟨name, attributes, here⟩ :: around, []⟩ := if_neg (by simpa using hname)
    have hinside : Builds ⟨⟨name, attributes, here⟩ :: around, []⟩ (tokensAll children)
        ⟨⟨name, attributes, here⟩ :: around, shownAll children⟩ := buildsAll children hchildren
    exact ((Builds.single hopen).append hinside).append (.single (if_pos rfl))
  | void name attributes =>
    obtain ⟨⟨-, hname⟩, -⟩ := h
    exact .single (if_pos (by simpa using hname))
/-- So it is for pieces in a row: each is added behind those that are there. -/
theorem buildsAll {around : List Unended} {here : List Node} {behindText : Bool} (ns : List Node)
    (h : TidyAll behindText ns) :
    Builds ⟨around, here⟩ (tokensAll ns) ⟨around, here ++ shownAll ns⟩ := by
  cases ns with
  | nil =>
    rw [shownAll, List.append_nil]
    rfl
  | cons n ns =>
    obtain ⟨hn, -, hns⟩ := h
    have hmore : Builds ⟨around, here ++ [n.shown]⟩ (tokensAll ns)
        ⟨around, here ++ [n.shown] ++ shownAll ns⟩ := buildsAll ns hns
    rw [List.append_assoc] at hmore
    exact (n.builds hn).append hmore
end

/-- Tidy pieces are read back from their text as they are shown. -/
theorem nodes?_writeAll {ns : List Node} (h : TidyAll false ns) :
    nodes? (writeAll ns) = some (shownAll ns) := by
  have hbuilds : Builds ⟨[], []⟩ (tokensAll ns) ⟨[], [] ++ shownAll ns⟩ := buildsAll ns h
  rw [nodes?, tokens?_writeAll h, Option.bind_some,
    show (tokensAll ns).foldlM Builder.step _ = _ from hbuilds]
  rfl

/-! ### Lists of elements -/

/-- Elements may stand in any row, since only texts can run together. -/
theorem tidyAll_of_elements {ns : List Node} (h : ∀ n ∈ ns, n.Tidy ∧ n.isText = false) (b : Bool) :
    TidyAll b ns := by
  induction ns generalizing b with
  | nil => trivial
  | cons n ns ih =>
    obtain ⟨hn, htext⟩ := h n (.head _)
    exact ⟨hn, by rw [htext, Bool.and_false], ih (fun n hn => h n (.tail _ hn)) _⟩

/-! ### Tags alone -/

/-- A token without the characters of its text. -/
def Token.bare : Token → Token
  | .text _ => .text []
  | t => t

/-- The tags in a text, and where there is text between them. -/
def tags? (cs : List Char) : Option (List Token) :=
  (tokens? cs).map (List.map Token.bare)

/-- The tags of some pieces, and where there is text between them. -/
def tags (ns : List Node) : List Token :=
  (tokensAll ns).map Token.bare

section Tags

variable {n n' : Node} {ns ns' : List Node}

/-- The tags of a row of pieces are those of the pieces. -/
theorem tags_append (ns ns' : List Node) : tags (ns ++ ns') = tags ns ++ tags ns' := by
  induction ns with
  | nil => rfl
  | cons n ns ih =>
    have hcons : ∀ ns, tags (n :: ns) = n.tokens.map Token.bare ++ tags ns := fun ns =>
      List.map_append
    rw [List.cons_append, hcons, hcons, ih, List.append_assoc]

theorem tags_element (name : String) (attributes : List (String × String)) (children : List Node) :
    tags [.element name attributes children] =
      .start name attributes :: tags children ++ [.stop name] := by
  rw [tags, tokensAll, tokensAll, List.append_nil, Node.tokens, List.cons_append, List.map_cons,
    List.map_append]
  rfl

/-- Rows with the same tags may be put together with the tags still the same. -/
theorem tags_append_congr {ms ms' : List Node} (h : tags ms = tags ms') (h' : tags ns = tags ns') :
    tags (ms ++ ns) = tags (ms' ++ ns') := by
  rw [tags_append, tags_append, h, h']

theorem tags_cons_congr (h : tags [n] = tags [n']) (h' : tags ns = tags ns') :
    tags (n :: ns) = tags (n' :: ns') :=
  tags_append_congr h h'

theorem tags_element_congr {name : String} {attributes : List (String × String)}
    (h : tags ns = tags ns') :
    tags [.element name attributes ns] = tags [.element name attributes ns'] := by
  rw [tags_element, tags_element, h]

/-- The tags of a text that was written from tidy pieces are the tags of the pieces. -/
theorem tags?_writeAll {ns : List Node} (h : TidyAll false ns) :
    tags? (writeAll ns) = some (tags ns) := by
  rw [tags?, tokens?_writeAll h]
  rfl

end Tags

/-! ### Elements that are looked for -/

/-- What is looked for, by the name and the attributes of an element. -/
abbrev Query := String → List (String × String) → Bool

mutual
/-- The elements of a piece that are looked for, in the order of the text. -/
def Node.select (q : Query) : Node → List Node
  | .text _ => []
  | .element name attributes children =>
    (if q name attributes then [.element name attributes children] else []) ++
      selectAll q children
  | .void name attributes => if q name attributes then [.void name attributes] else []
/-- The elements of several pieces that are looked for. -/
def selectAll (q : Query) : List Node → List Node
  | [] => []
  | n :: ns => n.select q ++ selectAll q ns
end

section Select

variable (q : Query)

/-- What is found in a row is found in its pieces, in order. -/
theorem selectAll_append (ns ns' : List Node) :
    selectAll q (ns ++ ns') = selectAll q ns ++ selectAll q ns' := by
  induction ns with
  | nil => rfl
  | cons n ns ih => rw [List.cons_append, selectAll, selectAll, ih, List.append_assoc]

theorem selectAll_eq_flatMap (ns : List Node) : selectAll q ns = ns.flatMap (Node.select q) := by
  induction ns with
  | nil => rfl
  | cons n ns ih => rw [selectAll, ih, List.flatMap_cons]

mutual
/-- The same elements are found in what is shown. -/
theorem Node.select_shown (n : Node) : n.shown.select q = (n.select q).map Node.shown := by
  cases n with
  | text content => rfl
  | element name attributes children =>
    rw [Node.shown, Node.select, Node.select, selectAll_shownAll children, List.map_append]
    split <;> rfl
  | void name attributes =>
    rw [Node.shown, Node.select]
    split <;> rfl
/-- What is found in the pieces that are shown is what is found in the pieces. -/
theorem selectAll_shownAll (ns : List Node) :
    selectAll q (shownAll ns) = (selectAll q ns).map Node.shown := by
  cases ns with
  | nil => rfl
  | cons n ns =>
    rw [shownAll, selectAll, selectAll, n.select_shown, selectAll_shownAll ns, List.map_append]
end

end Select

end AppShell.Markup
