/-
AppShell/Text/Pieces.lean

A text divided at one character.

`pieces` gives what stands between the separators, empty pieces included, so a
text with `n` separators has `n + 1` pieces and a text without any is its own
only piece.
-/

namespace AppShell.Text

/-- The pieces of a text between the given separators. -/
def pieces (sep : Char) : List Char → List (List Char)
  | [] => [[]]
  | c :: cs =>
    if c = sep then [] :: pieces sep cs
    else match pieces sep cs with
      | [] => [[c]]
      | piece :: rest => (c :: piece) :: rest

end AppShell.Text
