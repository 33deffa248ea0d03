/-
AppShell/Proofs/Preferences/RoundTrip.lean

What is stored is read back.

The text of a record of preferences is an object of three strings, each the tag
of a choice (`isText_encode`), so decoding the text gives the record
(`decode_encode`).
-/
import AppShell.Proofs.Preferences.Decoding

namespace AppShell.Preferences

open Json

/-- The members of the stored text of a record. -/
def storedMembers (p : Preferences) : List (String × Tree) :=
  [("dateFormat", .str (Tagged.tag p.dateFormat)), ("colorScheme", .str (Tagged.tag p.colorScheme)),
    ("uiDensity", .str (Tagged.tag p.uiDensity))]

theorem isText_encode (p : Preferences) : IsText (.obj p.storedMembers) p.encode.toList := by
  have htext : p.encode.toList =
      '{' :: (writeString "dateFormat" ++ ':' :: (writeString (Tagged.tag p.dateFormat) ++
        ',' :: (writeString "colorScheme" ++ ':' :: (writeString (Tagged.tag p.colorScheme) ++
        ',' :: (writeString "uiDensity" ++ ':' :: (writeString (Tagged.tag p.uiDensity) ++
        '}' :: [])))))) := by
    simp [encode, toJson, toPatch, PreferencesPatch.toJson, compact, fields, Members.ofList,
      writeCompact, writeMembers, writeScalar]
  rw [htext]
  exact .item (.none _) (.object (.nextMember (.written_member _ _ _)
    (.nextMember (.written_member _ _ _) (.lastMember (.written_member _ _ _))))) (.none _)

/-- The stored text of a record is decoded to the record. -/
theorem decode_encode (p : Preferences) : decode p.encode = .ok p := by
  rw [decode_eq_ok_iff (isText_encode p)]
  simp [decoded?, storedMembers, valuesOf, settle?, choice?, LawfulTagged.ofTag?_tag, ofPatch,
    merge]

end AppShell.Preferences
