/-
AppShell/Json/Basic.lean

JSON values.

Arrays and objects hold their entries in spines of their own (`Items`,
`Members`), so that equality is decidable and every function on values is
structural.  A number is an integer or a finite double: the two are different
values even where they are numerically equal, as `1` and `1.0` are.

`Members.insert` keeps an object sorted by key and lets the last value of a
repeated key win.  `fields` builds an object whose members stay in the order
given.
-/
import AppShell.Decimal.Binary64

namespace AppShell

open AppShell.Decimal

mutual
/-- A JSON value. -/
inductive Json where
  | null
  | bool (value : Bool)
  | int (value : Int)
  | double (value : Binary64)
  | str (value : String)
  | arr (items : Json.Items)
  | obj (members : Json.Members)
  deriving DecidableEq
/-- The items of an array. -/
inductive Json.Items where
  | nil
  | cons (head : Json) (tail : Json.Items)
  deriving DecidableEq
/-- The members of an object. -/
inductive Json.Members where
  | nil
  | cons (key : String) (value : Json) (tail : Json.Members)
  deriving DecidableEq
end

namespace Json

instance : Inhabited Json := ⟨.null⟩

namespace Items

/-- The items of a list, in its order. -/
def ofList : List Json → Items
  | [] => .nil
  | v :: vs => .cons v (ofList vs)

/-- The items as a list. -/
def toList : Items → List Json
  | .nil => []
  | .cons v vs => v :: toList vs

end Items

namespace Members

/-- The members of a list of pairs, in its order. -/
def ofList : List (String × Json) → Members
  | [] => .nil
  | (k, v) :: rest => .cons k v (ofList rest)

/-- The members as a list of pairs. -/
def toList : Members → List (String × Json)
  | .nil => []
  | .cons k v rest => (k, v) :: toList rest

/-- The value under a key. -/
def get? (key : String) : Members → Option Json
  | .nil => none
  | .cons k v rest => if k = key then some v else get? key rest

/-- Puts a member at its place in the order of keys, replacing one with the same key. -/
def insert (key : String) (value : Json) : Members → Members
  | .nil => .cons key value .nil
  | .cons k v rest =>
    if key < k then .cons key value (.cons k v rest)
    else if key = k then .cons key value rest
    else .cons k v (insert key value rest)

/-- The sorted members of a sequence of pairs: of a repeated key the last value stays. -/
def collect (pairs : List (String × Json)) : Members :=
  pairs.foldl (fun ms p => ms.insert p.1 p.2) .nil

@[simp] theorem get?_insert_self (key : String) (value : Json) :
    ∀ ms : Members, (ms.insert key value).get? key = some value
  | .nil => by simp [insert, get?]
  | .cons k v rest => by
    have ih := get?_insert_self key value rest
    rw [insert]
    split
    · simp [get?]
    · split
      · simp [get?]
      · rename_i hne
        simp [get?, Ne.symm hne, ih]

theorem get?_insert_of_ne {key other : String} (h : other ≠ key) (value : Json) :
    ∀ ms : Members, (ms.insert key value).get? other = ms.get? other
  | .nil => by simp [insert, get?, Ne.symm h]
  | .cons k v rest => by
    have ih := get?_insert_of_ne h value rest
    rw [insert]
    split
    · simp [get?, Ne.symm h]
    · split
      · rename_i heq
        simp [get?, Ne.symm h, ← heq]
      · simp [get?, ih]

end Members

/-- An array of the given items. -/
def list (items : List Json) : Json := .arr (Items.ofList items)

/-- An object whose members stay in the order given. -/
def fields (pairs : List (String × Json)) : Json := .obj (Members.ofList pairs)

/-- A text or null. -/
def ofText? (text : Option String) : Json := text.elim .null .str

/-- The value under a key, if the value is an object that has it. -/
def get? (key : String) : Json → Option Json
  | .obj ms => ms.get? key
  | _ => none

/-- The value under a key unless it is null. -/
def present? (key : String) (v : Json) : Option Json :=
  match v.get? key with
  | some .null | none => none
  | some w => some w

/-- The text of a string value. -/
def text? : Json → Option String
  | .str s => some s
  | _ => none

/-- The truth value of a Boolean. -/
def bool? : Json → Option Bool
  | .bool b => some b
  | _ => none

/-- The number of an integer value. -/
def int? : Json → Option Int
  | .int i => some i
  | _ => none

/-- The items of an array. -/
def items? : Json → Option (List Json)
  | .arr vs => some vs.toList
  | _ => none

/-- Whether the value is null. -/
def isNull : Json → Bool
  | .null => true
  | _ => false

end Json

end AppShell
