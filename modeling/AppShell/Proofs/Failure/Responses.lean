/-
AppShell/Proofs/Failure/Responses.lean

Bodies of responses.

The body of a response is what its text is without the white space at its ends:
nothing, a text of the strict grammar with its value, or any other text.  Which
of the three it is depends on nothing else, and with it all that is shown of the
error is settled: its message is the last text under `message` in an object, or
else the one of the status, and a report has a payload for a document only.

The white space that is trimmed is that of Unicode, and so more than the blanks of
the grammar; a body that spells a document inside such white space is a document.
The limits of the reader, on nested arrays and objects and on the size of numbers,
stand in `Tree.value?`.

The main statement is `ofResponse_by_content`.
-/
import AppShell.Failure.Report
import AppShell.Proofs.Json.Accepting
import AppShell.Proofs.Text

namespace AppShell

open AppShell.Json AppShell.Text

/-! ### Values of a kind -/

namespace Json

/-- The value of a number is a number. -/
theorem Literal.value_eq_ok {n : Literal} {v : Json} (h : n.value = .ok v) :
    (∃ i, v = .int i) ∨ ∃ d, v = .double d := by
  rw [Literal.value] at h
  split at h
  · exact .inl ⟨_, (Except.ok.inj h).symm⟩
  · -- otherwise it is scaled by the power of ten that its exponent leaves
    refine .inr ?_
    dsimp only at h
    split at h
    · split at h
      · exact ⟨_, (Except.ok.inj h).symm⟩
      · cases h
    · split at h
      · split at h
        · exact ⟨_, (Except.ok.inj h).symm⟩
        · cases h
      · split at h
        · cases h
        · exact ⟨_, (Except.ok.inj h).symm⟩

namespace Tree

variable {t : Tree} {depth : Nat}

theorem number_value?_ne {n : Literal} {v : Json} (h : (number n).value? depth = some v) :
    (∃ i, v = .int i) ∨ ∃ d, v = .double d := by
  rw [value?] at h
  cases hn : n.value with
  | error k => rw [hn] at h; cases h
  | ok w => rw [hn] at h; cases h; exact Literal.value_eq_ok hn

/-- Only an object has an object for its value. -/
theorem exists_obj_of_value? {members : Members} (h : t.value? depth = some (.obj members)) :
    ∃ ms, t = .obj ms := by
  cases t with
  | obj ms => exact ⟨ms, rfl⟩
  | number n => rcases number_value?_ne h with ⟨i, hi⟩ | ⟨d, hd⟩ <;> contradiction
  | arr ts =>
    cases depth with
    | zero => cases h
    | succ depth =>
      obtain ⟨vs, -, hvs⟩ := value?_arr_eq_some_iff.1 h
      cases hvs
  | null | bool | str => cases depth <;> cases h

/-- Only a text has a text for its value. -/
theorem value?_eq_str_iff {s : String} : t.value? depth = some (.str s) ↔ t = .str s := by
  refine ⟨fun h => ?_, fun h => h ▸ value?_str depth s⟩
  cases t with
  | str s' => cases depth <;> cases h <;> rfl
  | number n => rcases number_value?_ne h with ⟨i, hi⟩ | ⟨d, hd⟩ <;> contradiction
  | arr ts =>
    cases depth with
    | zero => cases h
    | succ depth =>
      obtain ⟨vs, -, hvs⟩ := value?_arr_eq_some_iff.1 h
      cases hvs
  | obj ms =>
    cases depth with
    | zero => cases h
    | succ depth =>
      obtain ⟨ps, -, hps⟩ := value?_obj_eq_some.1 h
      cases hps
  | null | bool => cases depth <;> cases h

end Tree

end Json

/-! ### Bodies -/

namespace ApiBody

variable {raw : String} {v : Json}

theorem ofText_congr {raw' : String} (h : trimChars raw.toList = trimChars raw'.toList) :
    ofText raw = ofText raw' := by
  rw [ofText, ofText, h]

/-- The three kinds of a body. -/
theorem ofText_cases (raw : String) :
    trimChars raw.toList = [] ∧ ofText raw = .empty ∨
    (∃ v, IsSpelling v (trimChars raw.toList) ∧ ofText raw = .structured v) ∨
    trimChars raw.toList ≠ [] ∧ (∀ v, ¬ IsSpelling v (trimChars raw.toList)) ∧
      ofText raw = .text (String.ofList (trimChars raw.toList)) := by
  rw [ofText]
  split
  · next hnil => exact .inl ⟨hnil, rfl⟩
  · next hne =>
    refine .inr ?_
    split
    · next v hparse => exact .inl ⟨v, parse_eq_ok_iff.1 hparse, rfl⟩
    · next f hparse =>
      refine .inr ⟨hne, fun v hv => ?_, rfl⟩
      rw [parse_eq_ok_iff.2 hv] at hparse
      cases hparse

theorem not_isSpelling_nil (v : Json) : ¬ IsSpelling v [] := by
  intro h
  have hparse := parse_of_isSpelling h
  cases hparse

theorem ofText_eq_empty_iff : ofText raw = .empty ↔ ∀ c ∈ raw.toList, isBlank c = true := by
  rw [← trimChars_eq_nil_iff]
  rcases ofText_cases raw with ⟨hnil, hbody⟩ | ⟨v, hv, hbody⟩ | ⟨hne, -, hbody⟩
  · exact iff_of_true hbody hnil
  · refine iff_of_false (hbody ▸ nofun) fun hnil => not_isSpelling_nil v ?_
    rwa [hnil] at hv
  · exact iff_of_false (hbody ▸ nofun) hne

theorem ofText_eq_structured_iff :
    ofText raw = .structured v ↔ IsSpelling v (trimChars raw.toList) := by
  rcases ofText_cases raw with ⟨hnil, hbody⟩ | ⟨w, hw, hbody⟩ | ⟨-, hnone, hbody⟩
  · rw [hbody, hnil]
    exact iff_of_false nofun (not_isSpelling_nil v)
  · rw [hbody]
    refine ⟨fun h => ApiBody.structured.inj h ▸ hw, fun h => congrArg _ ?_⟩
    exact Except.ok.inj ((parse_eq_ok_iff.2 hw).symm.trans (parse_eq_ok_iff.2 h))
  · exact iff_of_false (hbody ▸ nofun) (hnone v)

theorem ofText_eq_text_iff {s : String} :
    ofText raw = .text s ↔ s = String.ofList (trimChars raw.toList) ∧
      trimChars raw.toList ≠ [] ∧ ∀ v, ¬ IsSpelling v (trimChars raw.toList) := by
  rcases ofText_cases raw with ⟨hnil, hbody⟩ | ⟨w, hw, hbody⟩ | ⟨hne, hnone, hbody⟩
  · exact iff_of_false (hbody ▸ nofun) fun h => h.2.1 hnil
  · exact iff_of_false (hbody ▸ nofun) fun h => h.2.2 w hw
  · rw [hbody]
    exact ⟨fun h => ⟨(ApiBody.text.inj h).symm, hne, hnone⟩, fun h => congrArg _ h.1.symm⟩

end ApiBody

/-! ### Messages -/

/-- A text is an object that can be read, and the last value under `message` is a text. -/
def Brings (cs : List Char) (message : String) : Prop :=
  ∃ ms, IsText (.obj ms) cs ∧ ((Tree.obj ms).value? depthLimit).isSome ∧
    Tree.last? "message" ms = some (.str message)

/-- The value that a body has under `message` is the last one of its text. -/
theorem bodyMessage?_eq_some_iff {raw message : String} :
    ApiError.bodyMessage? (.ofText raw) = some message ↔
      Brings (trimChars raw.toList) message := by
  constructor
  · intro h
    obtain ⟨v, hdocument, h⟩ := Option.bind_eq_some_iff.1 h
    obtain ⟨w, hget, htext⟩ := Option.bind_eq_some_iff.1 h
    have hbody : ApiBody.ofText raw = .structured v := by
      cases hbody : ApiBody.ofText raw with
      | structured w => rw [hbody] at hdocument; cases hdocument; rfl
      | empty | text => rw [hbody] at hdocument; cases hdocument
    obtain ⟨t, ht, hv⟩ := ApiBody.ofText_eq_structured_iff.1 hbody
    -- only an object has a member, and only a string is a message
    cases v with
    | obj members =>
      obtain ⟨ms, rfl⟩ := Tree.exists_obj_of_value? hv
      obtain ⟨-, -, hmembers⟩ := Tree.value?_obj_eq_some_iff.1 hv
      have hlast := (hmembers "message").symm.trans hget
      obtain ⟨u, hu, hvalue⟩ := Option.bind_eq_some_iff.1 hlast
      cases w with
      | str s =>
        cases htext
        rw [Tree.value?_eq_str_iff.1 hvalue] at hu
        exact ⟨ms, ht, hv ▸ rfl, hu⟩
      | _ => cases htext
    | _ => cases hget
  · rintro ⟨ms, ht, hreadable, hlast⟩
    obtain ⟨v, hv⟩ := Option.isSome_iff_exists.1 hreadable
    obtain ⟨ps, -, rfl⟩ := Tree.value?_obj_eq_some.1 hv
    obtain ⟨-, -, hmembers⟩ := Tree.value?_obj_eq_some_iff.1 hv
    have hget : (Members.collect ps).get? "message" = some (.str message) := by
      rw [hmembers, hlast, Option.bind_some, Tree.value?_str]
    rw [ApiBody.ofText_eq_structured_iff.2 ⟨_, ht, hv⟩]
    show ((Members.collect ps).get? "message").bind text? = some message
    rw [hget]
    rfl

/-! ### The main statement -/

/-- What an error of a response is, by the text of its body. -/
structure ByContent (raw : String) (e : ApiError) : Prop where
  empty : e.body = .empty ↔ ∀ c ∈ raw.toList, isBlank c = true
  structured : ∀ v, e.body = .structured v ↔ IsSpelling v (trimChars raw.toList)
  text : ∀ s, e.body = .text s ↔ s = String.ofList (trimChars raw.toList) ∧
    trimChars raw.toList ≠ [] ∧ ∀ v, ¬ IsSpelling v (trimChars raw.toList)
  message : ∀ s, Brings (trimChars raw.toList) s → e.message = s
  fallback : (∀ s, ¬ Brings (trimChars raw.toList) s) →
    e.message = "request failed: " ++ toString e.status
  detail : ∀ v, e.detail? = some v ↔ e.body = .structured v
  payload : ∀ lead, ∃ payload,
    (Report.ofFailure (.api e) lead).details = .api (Report.apiFields e) payload ∧
      ∀ text, payload = some text ↔ ∃ v, e.body = .structured v ∧ text = v.pretty

theorem detail?_eq_some_iff {e : ApiError} {v : Json} :
    e.detail? = some v ↔ e.body = .structured v := by
  rw [ApiError.detail?]
  cases e.body with
  | structured w => simp [ApiBody.document?]
  | empty | text => simp [ApiBody.document?]

/-- The error of a response is determined by its status, its number and the text of the body within
its white space; which kind of body this is decides the message and the payload of a report. -/
theorem ofResponse_by_content (status : Nat) (requestId : Option String) (raw : String) :
    (∀ before behind : String, (∀ c ∈ before.toList, isBlank c = true) →
      (∀ c ∈ behind.toList, isBlank c = true) →
      ApiError.ofResponse status requestId (before ++ raw ++ behind) =
        ApiError.ofResponse status requestId raw) ∧
    (ApiError.ofResponse status requestId raw).status = status ∧
    (ApiError.ofResponse status requestId raw).requestId = requestId ∧
    ByContent raw (ApiError.ofResponse status requestId raw) := by
  refine ⟨fun before behind hbefore hbehind => ?_, rfl, rfl, ?_⟩
  · have htrim : trimChars (before ++ raw ++ behind).toList = trimChars raw.toList := by
      rw [String.toList_append, String.toList_append, List.append_assoc]
      exact trimChars_pad hbefore hbehind raw.toList
    rw [ApiError.ofResponse, ApiError.ofResponse, ApiBody.ofText_congr htrim]
  · refine ⟨ApiBody.ofText_eq_empty_iff, fun v => ApiBody.ofText_eq_structured_iff,
      fun s => ApiBody.ofText_eq_text_iff, fun s hs => ?_, fun hnone => ?_,
      fun v => detail?_eq_some_iff, fun lead => ⟨_, rfl, fun text => ?_⟩⟩
    · show (ApiError.bodyMessage? (.ofText raw)).getD _ = s
      rw [bodyMessage?_eq_some_iff.2 hs]
      rfl
    · have hmessage : ApiError.bodyMessage? (.ofText raw) = none :=
        Option.eq_none_iff_forall_ne_some.2 fun s hs => hnone s (bodyMessage?_eq_some_iff.1 hs)
      show (ApiError.bodyMessage? (.ofText raw)).getD _ = _
      rw [hmessage]
      rfl
    · rw [Option.map_eq_some_iff]
      exact exists_congr fun v => and_congr detail?_eq_some_iff eq_comm

/-- A document between white space that is no blank of the grammar, with two values under
`message`. -/
theorem ofResponse_by_content_padded :
    (∀ c ∈ "\u00a0".toList, isBlank c = true) ∧ (∀ c ∈ "\u3000".toList, isBlank c = true) ∧
      (ApiError.ofResponse 410 none
        ("\u00a0" ++ "\x7b\"message\":1,\"message\":\"gone\"\x7d" ++ "\u3000")).message =
        "gone" := by
  have hbefore : ∀ c ∈ "\u00a0".toList, isBlank c = true := by
    intro c hc
    obtain rfl : c = '\u00a0' := List.mem_singleton.1 hc
    rfl
  have hbehind : ∀ c ∈ "\u3000".toList, isBlank c = true := by
    intro c hc
    obtain rfl : c = '\u3000' := List.mem_singleton.1 hc
    rfl
  obtain ⟨hpad, -, -, hcontent⟩ :=
    ofResponse_by_content 410 none "\x7b\"message\":1,\"message\":\"gone\"\x7d"
  refine ⟨hbefore, hbehind, ?_⟩
  rw [hpad _ _ hbefore hbehind]
  exact hcontent.message "gone" (bodyMessage?_eq_some_iff.1 (by decide +kernel))

end AppShell
