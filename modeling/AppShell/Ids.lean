/-
AppShell/Ids.lean

Names for messages.

A sequence numbers its names from one.  A random name is a version 4 UUID: of
its hundred and twenty-eight bits six are fixed, the others come from the
caller.
-/
import AppShell.Text.Hex

namespace AppShell.Ids

/-- The name with the given number in a sequence. -/
def sequential (n : Nat) : String :=
  "n" ++ toString n

/-- The first `count` names of a sequence. -/
def firstSequential (count : Nat) : List String :=
  (List.range count).map fun n => sequential (n + 1)

/-! ### Random names -/

/-- Sixteen bytes with the bits of version and variant in place. -/
def markVersion (bytes : List UInt8) : List UInt8 :=
  (bytes.modify 6 fun b => 0x40 ||| (b &&& 0x0F)).modify 8 fun b => 0x80 ||| (b &&& 0x3F)

/-- The lengths of the groups of digits of a UUID. -/
def groupLengths : List Nat := [8, 4, 4, 4, 12]

/-- Digits in groups of the given lengths. -/
def grouped : List Nat → List Char → List (List Char)
  | [], _ => []
  | n :: ns, ds => ds.take n :: grouped ns (ds.drop n)

/-- The UUID of sixteen random bytes. -/
def uuid (bytes : List UInt8) : List Char :=
  List.intercalate ['-'] (grouped groupLengths (Text.Hex.encodeBytes (markVersion bytes)))

/-- The name of sixteen random bytes. -/
def random (bytes : List UInt8) : String :=
  String.ofList ('n' :: uuid bytes)

/-- Whether a character is a lower-case hexadecimal digit. -/
def isLowerDigit (c : Char) : Bool :=
  Text.Hex.lowerDigits.contains c

/-- Whether a text consists of `n`, and a version 4 UUID in lower case. -/
def isRandomName (s : String) : Bool :=
  match s.toList with
  | 'n' :: cs =>
    cs.length == 36 && [8, 13, 18, 23].all (fun i => cs[i]? == some '-') &&
      cs[14]? == some '4' && ['8', '9', 'a', 'b'].contains (cs.getD 19 ' ') &&
      (cs.filter (· != '-')).length == 32 && (cs.filter (· != '-')).all isLowerDigit
  | _ => false

end AppShell.Ids
