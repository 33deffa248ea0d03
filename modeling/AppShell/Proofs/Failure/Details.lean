/-
AppShell/Proofs/Failure/Details.lean

Documents in the details of a report.

A document is shown on several lines, wherever it comes from: from the body of a
response, as the body of an error, or as a value that is no error.  What is shown
is a strict text of the document, so nothing of it is lost
(`details_of_document`).  The body of a response may spell the document in any
way: the blanks at its ends are trimmed first, and what is left is still a
spelling (`ApiBody.ofText_of_isSpelling`).

A value that a repeated key hides is read before it is dropped.  Where it cannot
be read, the body is no document, though all that counts of it could be read
(`details_of_hidden_number`).
-/
import AppShell.Failure.Report
import AppShell.Proofs.Json.Extent
import AppShell.Proofs.Json.Printing

namespace AppShell

open AppShell.Json AppShell.Text

/-- A body that spells a document is this document. -/
theorem ApiBody.ofText_of_isSpelling {v : Json} {raw : String} (h : IsSpelling v raw.toList) :
    ApiBody.ofText raw = .structured v := by
  have hparse := parse_of_isSpelling h.trimChars
  rw [ofText]
  split
  · next hnil =>
    rw [hnil] at hparse
    cases hparse
  · rw [hparse]

namespace Report

theorem details_ofJson (v : Json) (lead : Option String) :
    (ofFailure (.ofJson v) lead).details = .code v.pretty :=
  rfl

/-- The payload of an error is the document of its body. -/
theorem details_api {e : ApiError} {v : Json} (h : e.body = .structured v)
    (lead : Option String) :
    (ofFailure (.api e) lead).details = .api (apiFields e) (some v.pretty) := by
  show ReportDetails.api (apiFields e) (e.body.document?.map Json.pretty) = _
  rw [h]
  rfl

/-- A document is shown by one text wherever it comes from, and is read back from it. -/
theorem details_of_document {v : Json} (hexact : v.Exact) (hnesting : v.nesting < 128) :
    (∃ text : String, IsSpelling v text.toList ∧ Json.parse text.toList = .ok v ∧
      (∀ lead, (ofFailure (.ofJson v) lead).details = .code text) ∧
      (∀ (e : ApiError) lead, (ofFailure (.api { e with body := .structured v }) lead).details =
        .api (apiFields e) (some text)) ∧
      ∀ (raw : String) (t : Tree) status requestId lead, IsText t raw.toList → t.Says v →
        (t.value? depthLimit).isSome →
        (ofFailure (.api (.ofResponse status requestId raw)) lead).details =
          .api (apiFields (.ofResponse status requestId raw)) (some text)) ∧
    ∀ (s : String) lead, ∃ code : String, (ofFailure (.ofText s) lead).details = .code code ∧
      IsSpelling (.str s) code.toList ∧ Json.parse code.toList = .ok (.str s) := by
  have hwritten := isSpelling_pretty hexact (Nat.le_of_lt_succ hnesting)
  refine ⟨⟨v.pretty, hwritten, parse_of_isSpelling hwritten, details_ofJson v,
    fun e lead => details_api rfl lead,
    fun raw t status requestId lead htext hsays hreadable => ?_⟩, fun s lead => ?_⟩
  · -- the value that is read can only be the one that the text says
    obtain ⟨w, hvalue⟩ := Option.isSome_iff_exists.1 hreadable
    cases hsays.eq_of_value? hvalue
    exact details_api (ApiBody.ofText_of_isSpelling ⟨t, htext, hvalue⟩) lead
  · have hstr : IsSpelling (.str s) (Json.str s).pretty.toList :=
      isSpelling_pretty trivial (Nat.zero_le _)
    exact ⟨_, details_ofJson _ lead, hstr, parse_of_isSpelling hstr⟩

/-- A document with the extreme integers. -/
def extremes : Json :=
  .fields [("k", .str "/😀"),
    ("é", .list [.int (-9223372036854775808), .int 18446744073709551615])]

/-- The document in another spelling: spaced, escaped, with the members in another order and a key
that is repeated. -/
def extremesText : String :=
  " \x7b\"k\":1e3,\"\\u00e9\":[-9223372036854775808,18446744073709551615]\n," ++
    "\"k\" :\"\\/\\ud83d\\ude00\"\x7d\t"

/-- What the other spelling says. -/
def extremesTree : Tree :=
  .obj [("k", .number ⟨false, ['1'], [], some (false, ['3'])⟩),
    ("é", .arr [.number (.ofInt (-9223372036854775808)), .number (.ofInt 18446744073709551615)]),
    ("k", .str "/😀")]

theorem exact_extremes : extremes.Exact := by
  have hkeys : "k" < "é" := by decide
  exact ⟨List.pairwise_pair.2 hkeys, trivial,
    ⟨⟨by decide, by decide⟩, ⟨by decide, by decide⟩, trivial⟩, trivial⟩

/-- A power of ten. -/
theorem numeral_power {ds : List Char} (hdigits : ds.all Char.isDigit = true) (hne : ds ≠ [])
    (rest : List Char) :
    Numeral ⟨false, ['1'], [], some (false, ds)⟩ ('1' :: 'e' :: (ds ++ rest)) rest := by
  have hone (rest : List Char) : Digits ['1'] ('1' :: rest) rest :=
    ⟨rfl, List.forall_mem_singleton.2 rfl, List.cons_ne_nil _ _⟩
  have hexponent : Digits ds (ds ++ rest) rest := ⟨rfl, List.all_eq_true.1 hdigits, hne⟩
  exact .plain rfl (.parts (.digits (by decide) (hone _)) (.none _)
    (.digits (.inl rfl) (.none _) hexponent))

theorem isText_extremes : IsText extremesTree extremesText.toList := by
  have htext : extremesText.toList =
      ' ' :: '{' :: '"' :: 'k' :: '"' :: ':' :: '1' :: 'e' :: '3' :: ',' :: '"' ::
        '\\' :: 'u' :: '0' :: '0' :: 'e' :: '9' :: '"' :: ':' :: '[' ::
        (writeInt (-9223372036854775808) ++ ',' :: (writeInt 18446744073709551615 ++
        ']' :: '\n' :: ',' :: '"' :: 'k' :: '"' :: ' ' :: ':' :: '"' :: '\\' :: '/' ::
        '\\' :: 'u' :: 'd' :: '8' :: '3' :: 'd' :: '\\' :: 'u' :: 'd' :: 'e' :: '0' :: '0' ::
        '"' :: '}' :: ['\t'])) := by rfl
  have hk (rest : List Char) : Chars ['k'] ('k' :: '"' :: rest) rest := .written ['k'] rest
  have hnumber (rest : List Char) :
      Numeral ⟨false, ['1'], [], some (false, ['3'])⟩ ('1' :: 'e' :: '3' :: rest) rest :=
    numeral_power (by decide) (by decide) rest
  have he (rest : List Char) :
      Chars ['é'] ('\\' :: 'u' :: '0' :: '0' :: 'e' :: '9' :: '"' :: rest) rest :=
    .unit (show unitValue? '0' '0' 'e' '9' = some 'é'.toNat from rfl) rfl rfl (.close rest)
  have hsmile (rest : List Char) : Chars ['/', '😀']
      ('\\' :: '/' :: '\\' :: 'u' :: 'd' :: '8' :: '3' :: 'd' :: '\\' :: 'u' :: 'd' :: 'e' ::
        '0' :: '0' :: '"' :: rest) rest := by
    have hpair := Chars.pair (show unitValue? 'd' '8' '3' 'd' = some 0xD83D by decide) (by decide)
      (show unitValue? 'd' 'e' '0' '0' = some 0xDE00 by decide) (by decide) (.close rest)
    rw [show joinSurrogates 0xD83D 0xDE00 = '😀' by decide] at hpair
    exact .letter (by decide) hpair
  have hspace (rest : List Char) : Spaces (' ' :: rest) rest := .blank rfl (.none rest)
  have hnewline (rest : List Char) : Spaces ('\n' :: rest) rest := .blank rfl (.none rest)
  have htab : Spaces ['\t'] [] := .blank rfl (.none [])
  rw [htext]
  refine .item (hspace _) (.object (.nextMember (.member (.none _) (hk _) (.none _)
    (.item (.none _) (.number (hnumber _)) (.none _))) ?_)) htab
  refine .nextMember (.member (.none _) (he _) (.none _) (.item (.none _) (.list (.nextItem
    (.item (.none _) (.number (numeral_writeInt _ _)) (.none _)) (.lastItem
    (.item (.none _) (.number (numeral_writeInt _ _)) (.none _))))) (hnewline _))) ?_
  exact .lastMember (.member (.none _) (hk _) (hspace _)
    (.item (.none _) (.str (hsmile _)) (.none _)))

theorem value?_extremesTree : extremesTree.value? depthLimit = some extremes := by
  decide

theorem details_of_extremes :
    (extremes.Exact ∧ extremes.nesting < 128) ∧
      (IsText extremesTree extremesText.toList ∧ extremesTree.Says extremes ∧
        (extremesTree.value? depthLimit).isSome) ∧
      ∃ text : String, Json.parse text.toList = .ok extremes ∧
        (ofFailure (.ofJson extremes) none).details = .code text ∧
        (ofFailure (.api (.ofResponse 500 (some "r1") extremesText)) none).details =
          .api [("Status", "500"), ("Request ID", "r1")] (some text) := by
  have hnesting : extremes.nesting < 128 := by decide
  have hsays : extremesTree.Says extremes := Tree.says_of_value? value?_extremesTree
  have hreadable : (extremesTree.value? depthLimit).isSome := by
    rw [value?_extremesTree]
    rfl
  obtain ⟨⟨text, -, hparse, hvalue, -, hresponse⟩, -⟩ :=
    details_of_document exact_extremes hnesting
  exact ⟨⟨exact_extremes, hnesting⟩, ⟨isText_extremes, hsays, hreadable⟩, text, hparse,
    hvalue none, hresponse extremesText extremesTree 500 (some "r1") none isText_extremes hsays
      hreadable⟩

/-! ### Hidden values -/

/-- A document of one member. -/
def oneMember : Json :=
  .fields [("a", .int 1)]

/-- The document behind a hidden number that is too large. -/
def hidingText : String :=
  "\x7b\"a\":1e999,\"a\":1\x7d"

/-- What the text with the hidden number says. -/
def hidingTree : Tree :=
  .obj [("a", .number ⟨false, ['1'], [], some (false, ['9', '9', '9'])⟩),
    ("a", .number (.ofInt 1))]

theorem isText_hiding : IsText hidingTree hidingText.toList := by
  have htext : hidingText.toList = '{' :: '"' :: 'a' :: '"' :: ':' :: '1' :: 'e' :: '9' :: '9' ::
      '9' :: ',' :: '"' :: 'a' :: '"' :: ':' :: (writeInt 1 ++ ['}']) := by rfl
  have hkey (rest : List Char) : Chars ['a'] ('a' :: '"' :: rest) rest := .written ['a'] rest
  have hnumber (rest : List Char) : Numeral ⟨false, ['1'], [], some (false, ['9', '9', '9'])⟩
      ('1' :: 'e' :: '9' :: '9' :: '9' :: rest) rest := numeral_power (by decide) (by decide) rest
  rw [htext]
  refine .item (.none _) (.object (.nextMember (.member (.none _) (hkey _) (.none _)
    (.item (.none _) (.number (hnumber _)) (.none _))) ?_)) (.none _)
  exact .lastMember (.member (.none _) (hkey _) (.none _)
    (.item (.none _) (.number (numeral_writeInt 1 _)) (.none _)))

theorem says_hiding : hidingTree.Says oneMember := by
  refine .obj (List.pairwise_singleton _ _) fun key => ?_
  by_cases hkey : key = "a"
  · subst hkey
    exact .some (.number rfl)
  · have hlast : Tree.last? key [("a", .number ⟨false, ['1'], [], some (false, ['9', '9', '9'])⟩),
        ("a", .number (.ofInt 1))] = none := by
      simp [Tree.last?, List.lookup_cons, beq_eq_false_iff_ne.2 hkey]
    have hget : (Members.cons "a" (.int 1) .nil).get? key = none := if_neg (Ne.symm hkey)
    rw [hlast]
    exact hget ▸ .none

/-- A document is not shown if its text hides a number that is too large. -/
theorem details_of_hidden_number :
    (oneMember.Exact ∧ oneMember.nesting < 128) ∧
      (IsText hidingTree hidingText.toList ∧ hidingTree.Says oneMember) ∧
      (ofFailure (.ofJson oneMember) none).details = .code "\x7b\n  \"a\": 1\n\x7d" ∧
      (ofFailure (.api (.ofResponse 500 none hidingText)) none).details =
        .api [("Status", "500")] none := by
  have hexact : oneMember.Exact :=
    ⟨List.pairwise_singleton _ _, ⟨by decide, by decide⟩, trivial⟩
  have hresponse : (ofFailure (.api (.ofResponse 500 none hidingText)) none).details =
      .api [("Status", "500")] none := by decide +kernel
  exact ⟨⟨hexact, by decide⟩, ⟨isText_hiding, says_hiding⟩, by decide, hresponse⟩

end Report

end AppShell
