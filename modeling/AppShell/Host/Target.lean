/-
AppShell/Host/Target.lean

Targets of requests.

A target is a path with what may follow it, or a whole address: a scheme, `://`
and an authority in front of such a path, which may then be empty.  A query and
a fragment do not count.  A target of another kind, such as an asterisk or an
authority by itself, does not start with a slash and so leads nowhere.
-/

namespace AppShell.Host.Target

/-- Whether a character may stand in a scheme. -/
def isSchemeChar (c : Char) : Bool :=
  c.isAlphanum || c == '+' || c == '-' || c == '.'

/-- What follows the scheme of an address, and none for any other text. -/
def afterScheme? (cs : List Char) : Option (List Char) :=
  match cs.dropWhile isSchemeChar with
  | ':' :: '/' :: '/' :: rest => some rest
  | _ => none

/-- What follows an authority. -/
def afterAuthority (cs : List Char) : List Char :=
  cs.dropWhile fun c => c != '/' && c != '?' && c != '#'

/-- A text without its query and fragment. -/
def withoutQuery (cs : List Char) : List Char :=
  cs.takeWhile fun c => c != '?' && c != '#'

/-- The path of a target; an address without a path leads to the root. -/
def path (target : String) : List Char :=
  match afterScheme? target.toList with
  | none => withoutQuery target.toList
  | some rest =>
    match withoutQuery (afterAuthority rest) with
    | [] => ['/']
    | path => path

/-- A target that starts with a slash is no whole address. -/
theorem afterScheme?_slash (cs : List Char) : afterScheme? ('/' :: cs) = none := by
  simp [afterScheme?, List.dropWhile_cons_of_neg (show ¬ isSchemeChar '/' = true by decide)]

theorem path_of_slash {target : String} {cs : List Char} (h : target.toList = '/' :: cs) :
    path target = withoutQuery ('/' :: cs) := by
  simp [path, h, afterScheme?_slash]

end AppShell.Host.Target
