/-
AppShell/Proofs/Json/Grammar.lean

The strict grammar of JSON texts.

A `Tree` is what a text says before anything is read into a value: objects keep
the order of their members and repeated keys, and numbers their digits.  Each
rule of the grammar relates the characters that are left before a phrase to
those that are left behind it (`Spells p cs rest`), so that a text may be spaced
and its strings escaped in any way.  Escapes of lone surrogates have no rule.
-/
import AppShell.Json.Reader

namespace AppShell.Json

/-! ### Tokens -/

/-- Blanks in front of `rest`. -/
inductive Spaces : List Char → List Char → Prop
  | none (rest : List Char) : Spaces rest rest
  | blank {c : Char} {cs rest : List Char} :
      isSpace c = true → Spaces cs rest → Spaces (c :: cs) rest

/-- One or more digits in front of `rest`. -/
structure Digits (ds cs rest : List Char) : Prop where
  text : cs = ds ++ rest
  digits : ∀ d ∈ ds, d.isDigit = true
  ne_nil : ds ≠ []

/-- The digits before the point, of which a zero stands alone. -/
inductive Whole : List Char → List Char → List Char → Prop
  | zero (rest : List Char) : Whole ['0'] ('0' :: rest) rest
  | digits {d : Char} {ds cs rest : List Char} :
      d ≠ '0' → Digits (d :: ds) cs rest → Whole (d :: ds) cs rest

/-- The digits behind the point, if there is one. -/
inductive Fraction : List Char → List Char → List Char → Prop
  | none (rest : List Char) : Fraction [] rest rest
  | digits {ds cs rest : List Char} : Digits ds cs rest → Fraction ds ('.' :: cs) rest

/-- The sign of an exponent: whether it is a minus. -/
inductive ExponentSign : Bool → List Char → List Char → Prop
  | none (rest : List Char) : ExponentSign false rest rest
  | plus (rest : List Char) : ExponentSign false ('+' :: rest) rest
  | minus (rest : List Char) : ExponentSign true ('-' :: rest) rest

/-- The sign and the digits of an exponent, if there is one. -/
inductive Exponent : Option (Bool × List Char) → List Char → List Char → Prop
  | none (rest : List Char) : Exponent none rest rest
  | digits {e : Char} {negative : Bool} {ds cs cs' rest : List Char} :
      e = 'e' ∨ e = 'E' → ExponentSign negative cs cs' → Digits ds cs' rest →
      Exponent (some (negative, ds)) (e :: cs) rest

/-- A number without its sign. -/
inductive Magnitude (n : Literal) (cs rest : List Char) : Prop
  | parts {behindWhole behindFraction : List Char} :
      Whole n.whole cs behindWhole → Fraction n.fraction behindWhole behindFraction →
      Exponent n.exponent behindFraction rest → Magnitude n cs rest

/-- A number. -/
inductive Numeral : Literal → List Char → List Char → Prop
  | plain {n : Literal} {cs rest : List Char} :
      n.negative = false → Magnitude n cs rest → Numeral n cs rest
  | minus {n : Literal} {cs rest : List Char} :
      n.negative = true → Magnitude n cs rest → Numeral n ('-' :: cs) rest

/-- The letters of escapes, with what they stand for. -/
def escapeLetters : List (Char × Char) :=
  [('"', '"'), ('\\', '\\'), ('/', '/'), ('b', '\x08'), ('f', '\x0c'), ('n', '\n'), ('r', '\r'),
    ('t', '\t')]

/-- The characters of a string, behind its opening quote and up to the closing one. -/
inductive Chars : List Char → List Char → List Char → Prop
  | close (rest : List Char) : Chars [] ('"' :: rest) rest
  | plain {c : Char} {s cs rest : List Char} :
      0x20 ≤ c.toNat → c ≠ '"' → c ≠ '\\' → Chars s cs rest → Chars (c :: s) (c :: cs) rest
  | letter {l c : Char} {s cs rest : List Char} :
      (l, c) ∈ escapeLetters → Chars s cs rest → Chars (c :: s) ('\\' :: l :: cs) rest
  | unit {a b c d : Char} {n : Nat} {s cs rest : List Char} :
      unitValue? a b c d = some n → isLeading n = false → isTrailing n = false →
      Chars s cs rest → Chars (Char.ofNat n :: s) ('\\' :: 'u' :: a :: b :: c :: d :: cs) rest
  | pair {a b c d a' b' c' d' : Char} {lead trail : Nat} {s cs rest : List Char} :
      unitValue? a b c d = some lead → isLeading lead = true →
      unitValue? a' b' c' d' = some trail → isTrailing trail = true → Chars s cs rest →
      Chars (joinSurrogates lead trail :: s)
        ('\\' :: 'u' :: a :: b :: c :: d :: '\\' :: 'u' :: a' :: b' :: c' :: d' :: cs) rest

/-! ### Values -/

/-- What a text says: members in their order, with repeated keys, and numbers as digits. -/
inductive Tree where
  | null
  | bool (value : Bool)
  | number (literal : Literal)
  | str (value : String)
  | arr (items : List Tree)
  | obj (members : List (String × Tree))

/-- A phrase of a text: a value, an entry of an array or object with the blanks around it, or one
or more entries with the closing bracket behind them. -/
inductive Phrase where
  | value (v : Tree)
  | item (v : Tree)
  | items (vs : List Tree)
  | member (key : String) (v : Tree)
  | members (ms : List (String × Tree))

/-- A phrase in front of `rest`. -/
inductive Spells : Phrase → List Char → List Char → Prop
  | null (rest : List Char) : Spells (.value .null) ('n' :: 'u' :: 'l' :: 'l' :: rest) rest
  | boolTrue (rest : List Char) :
      Spells (.value (.bool true)) ('t' :: 'r' :: 'u' :: 'e' :: rest) rest
  | boolFalse (rest : List Char) :
      Spells (.value (.bool false)) ('f' :: 'a' :: 'l' :: 's' :: 'e' :: rest) rest
  | number {n : Literal} {cs rest : List Char} :
      Numeral n cs rest → Spells (.value (.number n)) cs rest
  | str {s cs rest : List Char} :
      Chars s cs rest → Spells (.value (.str (String.ofList s))) ('"' :: cs) rest
  | emptyList {cs rest : List Char} :
      Spaces cs (']' :: rest) → Spells (.value (.arr [])) ('[' :: cs) rest
  | list {vs : List Tree} {cs rest : List Char} :
      Spells (.items vs) cs rest → Spells (.value (.arr vs)) ('[' :: cs) rest
  | emptyObject {cs rest : List Char} :
      Spaces cs ('}' :: rest) → Spells (.value (.obj [])) ('{' :: cs) rest
  | object {ms : List (String × Tree)} {cs rest : List Char} :
      Spells (.members ms) cs rest → Spells (.value (.obj ms)) ('{' :: cs) rest
  | item {v : Tree} {cs cs' cs'' rest : List Char} :
      Spaces cs cs' → Spells (.value v) cs' cs'' → Spaces cs'' rest → Spells (.item v) cs rest
  | lastItem {v : Tree} {cs rest : List Char} :
      Spells (.item v) cs (']' :: rest) → Spells (.items [v]) cs rest
  | nextItem {v : Tree} {vs : List Tree} {cs cs' rest : List Char} :
      Spells (.item v) cs (',' :: cs') → Spells (.items vs) cs' rest →
      Spells (.items (v :: vs)) cs rest
  | member {key : List Char} {v : Tree} {cs inside behind cs' rest : List Char} :
      Spaces cs ('"' :: inside) → Chars key inside behind → Spaces behind (':' :: cs') →
      Spells (.item v) cs' rest → Spells (.member (String.ofList key) v) cs rest
  | lastMember {key : String} {v : Tree} {cs rest : List Char} :
      Spells (.member key v) cs ('}' :: rest) → Spells (.members [(key, v)]) cs rest
  | nextMember {key : String} {v : Tree} {ms : List (String × Tree)} {cs cs' rest : List Char} :
      Spells (.member key v) cs (',' :: cs') → Spells (.members ms) cs' rest →
      Spells (.members ((key, v) :: ms)) cs rest

/-- A whole text is a value with blanks around it. -/
def IsText (v : Tree) (cs : List Char) : Prop :=
  Spells (.item v) cs []

end AppShell.Json
