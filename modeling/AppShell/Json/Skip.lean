/-
AppShell/Json/Skip.lean

Values of a JSON text that are passed over.

A skipped value must be well formed, but nothing of it is built: it may be
nested as deep as it likes, its numbers may be of any size and its strings may
escape a lone surrogate.  No value nests deeper, and no array or object has more
entries, than its text is long; so one bound, which the length of the text gives
and each level lowers by one, serves for both.
-/
import AppShell.Json.Reader

namespace AppShell.Json

/-- Passes over a part of a text. -/
abbrev Skipper := List Char → Except Fault (List Char)

/-- What follows the items of an array and its end; `fuel` bounds their number. -/
def skipItems (item : Skipper) : Nat → Bool → Skipper
  | 0, _, cs => .error (.before .endOfList cs)
  | fuel + 1, first, cs =>
    match skipSpace cs with
    | [] => .error (.before .endOfList [])
    | ']' :: rest => .ok rest
    | c :: rest =>
      if first then item (c :: rest) >>= skipItems item fuel false
      else if c = ',' then item rest >>= skipItems item fuel false
      else .error (.inside .expectedListEnd (c :: rest))

/-- What follows the value of a member, read from its key on. -/
def skipMember (item : Skipper) (cs : List Char) : Except Fault (List Char) :=
  match skipSpace cs with
  | [] => .error (.before .endOfObject [])
  | '"' :: rest => skipChars rest >>= expectColon >>= item
  | rest => .error (.inside .keyNotString rest)

/-- What follows the members of an object and its end; `fuel` bounds their number. -/
def skipMembers (item : Skipper) : Nat → Bool → Skipper
  | 0, _, cs => .error (.before .endOfObject cs)
  | fuel + 1, first, cs =>
    match skipSpace cs with
    | [] => .error (.before .endOfObject [])
    | '}' :: rest => .ok rest
    | c :: rest =>
      if first then skipMember item (c :: rest) >>= skipMembers item fuel false
      else if c = ',' then skipMember item rest >>= skipMembers item fuel false
      else .error (.inside .expectedObjectEnd (c :: rest))

/-- What follows a value that has at most `fuel` entries, which `nested` passes over. -/
def skipWith (fuel : Nat) (nested : Skipper) (cs : List Char) : Except Fault (List Char) :=
  match skipSpace cs with
  | [] => .error (.before .endOfValue [])
  | c :: rest =>
    match c with
    | 'n' => expectWord ['u', 'l', 'l'] rest
    | 't' => expectWord ['r', 'u', 'e'] rest
    | 'f' => expectWord ['a', 'l', 's', 'e'] rest
    | '-' => skipNumber rest
    | '"' => skipChars rest
    | '[' => skipItems nested fuel true rest
    | '{' => skipMembers nested fuel true rest
    | _ =>
      if c.isDigit then skipNumber (c :: rest)
      else .error (.inside .expectedValue (c :: rest))

/-- What follows a value whose text is shorter than the given bound. -/
def skipNested : Nat → Skipper
  | 0, cs => .error (.inside .tooDeep cs)
  | bound + 1, cs => skipWith bound (skipNested bound) cs

/-- What follows a value. -/
def skipValue (cs : List Char) : Except Fault (List Char) :=
  skipNested (cs.length + 1) cs

end AppShell.Json
