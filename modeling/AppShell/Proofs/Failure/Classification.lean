/-
AppShell/Proofs/Failure/Classification.lean

Errors of known and of unknown type.

Whether the type of an error is known makes no difference but for the name at the
top, and there only for an error whose kind has no name (`ErrorValue.Named`).  An error of the
application interface is recognised where it is the error itself, never among
its causes.

The name stands once in the details: what is written before and behind it does
not depend on it (`ErrorDetails.pretty_toJson`).

The main statement is `Failure.ofError_agrees_ofTyped`.
-/
import AppShell.Proofs.Failure.Causes

namespace AppShell

open AppShell.Json

namespace ErrorDetails

/-- What is written before the name of the outermost error. -/
def beforeName : List Char :=
  '{' :: (newline 1 ++ (writeString "name" ++ [':', ' ']))

/-- What is written behind the name of the outermost error. -/
def behindName (message : String) (causes : List ErrorLevel) : List Char :=
  ',' :: (prettyMembers 1 (.ofList (("message", .str message) ::
    (causesJson causes).toList.map fun c => ("cause", c))) ++ (newline 0 ++ ['}']))

theorem pretty_toJson (name message : String) (causes : List ErrorLevel) :
    (toJson ⟨⟨name, message⟩, causes⟩).pretty =
      String.ofList (beforeName ++ (writeString name ++ behindName message causes)) := by
  rw [pretty]
  refine congrArg String.ofList ?_
  simp only [toJson, levelJson, fields, Members.ofList, writePretty, prettyMembers, writeScalar,
    beforeName, behindName, List.append_assoc, List.cons_append, List.nil_append]

end ErrorDetails

namespace Failure

open ErrorValue

theorem ofError_of_not_api {e : ErrorValue} (h : ∀ a, e ≠ .api a) :
    ofError e = .error (.ofError e) := by
  cases e with
  | api a => exact absurd rfl (h a)
  | _ => rfl

theorem ofTyped_of_not_api {e : ErrorValue} (h : ∀ a, e ≠ .api a) (typeName : String) :
    ofTyped typeName e = .error (.ofTyped typeName e) := by
  cases e with
  | api a => exact absurd rfl (h a)
  | _ => rfl

/-- An error whose kind has a name has that name in both ways. -/
theorem name_of_named {e : ErrorValue} {n : String} (h : Named e n) (typeName : String) :
    e.name = n ∧ e.nameAs typeName = n := by
  have hknown := knownName?_eq_some_iff.2 h
  constructor
  · rw [ErrorValue.name, hknown, Option.getD_some]
  · rw [nameAs, hknown, Option.getD_some]

/-- An error whose kind has no name is named by its diagnostic text or by its type. -/
theorem name_of_unnamed {e : ErrorValue} (h : ∀ n, ¬Named e n) (typeName : String) :
    IsLeadingName e.debugText e.name ∧ e.nameAs typeName = typeName := by
  have hknown := knownName?_eq_none_iff.2 h
  constructor
  · rw [ErrorValue.name, hknown, Option.getD_none]
    exact isLeadingName_leadingName e.debugText
  · rw [nameAs, hknown, Option.getD_none]

/-- An error has two names at the top only if its kind has none. -/
theorem not_named_of_name_ne {e : ErrorValue} {typeName : String}
    (h : e.name ≠ e.nameAs typeName) (n : String) : ¬Named e n := by
  intro hnamed
  obtain ⟨hname, hnameAs⟩ := name_of_named hnamed typeName
  exact h (hname.trans hnameAs.symm)

/-- The two failures of an error are the same but for the name at the top, and there too if its kind
has a name. -/
theorem ofError_agrees_ofTyped (e : ErrorValue) (typeName : String) :
    (∃ a, e = .api a ∧ ofError e = .api a ∧ ofTyped typeName e = .api a) ∨
    (∀ a, e ≠ .api a) ∧
      ∃ name name' causes,
        ofError e = .error ⟨⟨name, e.text⟩, causes⟩ ∧
        ofTyped typeName e = .error ⟨⟨name', e.text⟩, causes⟩ ∧
        (∀ n, Named e n → name = n ∧ name' = n) ∧
        ((∀ n, ¬Named e n) → IsLeadingName e.debugText name ∧ name' = typeName) ∧
        (name ≠ name' → ∀ n, ¬Named e n) ∧
        (∃ es, Sources e es ∧ List.Forall₂ ReportedAs (es.tail.take 32) causes) ∧
        (∀ lead, (Report.ofFailure (ofError e) lead).summary =
          (Report.ofFailure (ofTyped typeName e) lead).summary) ∧
        ∃ front behind, ∀ lead,
          (Report.ofFailure (ofError e) lead).details =
            .code (String.ofList (front ++ (writeString name ++ behind))) ∧
          (Report.ofFailure (ofTyped typeName e) lead).details =
            .code (String.ofList (front ++ (writeString name' ++ behind))) := by
  by_cases hapi : ∃ a, e = .api a
  · obtain ⟨a, rfl⟩ := hapi
    exact .inl ⟨a, rfl, rfl, rfl⟩
  · have hnot : ∀ a, e ≠ .api a := fun a ha => hapi ⟨a, ha⟩
    have hsources := sources_chain e
    rw [ofError_of_not_api hnot, ofTyped_of_not_api hnot]
    refine .inr ⟨hnot, e.name, e.nameAs typeName, (ErrorDetails.ofError e).causes, rfl, rfl,
      fun n hnamed => name_of_named hnamed typeName, fun hnone => name_of_unnamed hnone typeName,
      not_named_of_name_ne, ⟨e.chain, hsources, ErrorDetails.causes_ofChain hsources _⟩,
      fun lead => rfl, ErrorDetails.beforeName,
      -- both documents are written around the name at the top, which occurs in them only once
      ErrorDetails.behindName e.text (ErrorDetails.ofError e).causes, fun lead => ⟨?_, ?_⟩⟩
    · exact congrArg ReportDetails.code (ErrorDetails.pretty_toJson e.name e.text _)
    · exact congrArg ReportDetails.code (ErrorDetails.pretty_toJson (e.nameAs typeName) e.text _)

end Failure

end AppShell
