/-
AppShell/Json/Text.lean

Strings of a JSON text, read or skipped, after the opening quote.

`readChars` gives the characters of a string and what follows its closing
quote.  An escape by number is one unit of UTF-16: a leading surrogate must be
followed by an escaped trailing one.  `skipChars` only looks for the closing
quote, so surrogates need no partner there.
-/
import AppShell.Json.Fault

namespace AppShell.Json

open AppShell.Text

/-! ### Escapes -/

/-- The value of four hexadecimal digits. -/
def unitValue? (a b c d : Char) : Option Nat := do
  let a ← Hex.digitValue? a
  let b ← Hex.digitValue? b
  let c ← Hex.digitValue? c
  let d ← Hex.digitValue? d
  return ((a * 16 + b) * 16 + c) * 16 + d

/-- The fault of a rest that does not start with four hexadecimal digits. -/
def unitFault (rest : List Char) : Fault :=
  if byteLength rest < 4 then ⟨.endOfString, 0⟩ else ⟨.invalidEscape, byteLength rest - 4⟩

/-- A unit of four hexadecimal digits. -/
def readUnit : List Char → Except Fault (Nat × List Char)
  | a :: b :: c :: d :: rest =>
    match unitValue? a b c d with
    | some n => .ok (n, rest)
    | none => .error (unitFault (a :: b :: c :: d :: rest))
  | rest => .error (unitFault rest)

/-- Whether a unit is a leading surrogate. -/
def isLeading (n : Nat) : Bool := 0xD800 ≤ n && n ≤ 0xDBFF

/-- Whether a unit is a trailing surrogate. -/
def isTrailing (n : Nat) : Bool := 0xDC00 ≤ n && n ≤ 0xDFFF

/-- The character behind a pair of surrogates. -/
def joinSurrogates (lead trail : Nat) : Char :=
  Char.ofNat (0x10000 + (lead - 0xD800) * 0x400 + (trail - 0xDC00))

/-- The trailing half of a pair whose leading half was `lead`. -/
def readTrailing (lead : Nat) : List Char → Except Fault (Char × List Char)
  | '\\' :: 'u' :: rest =>
    match readUnit rest with
    | .error f => .error f
    | .ok (n, rest) =>
      if isTrailing n then .ok (joinSurrogates lead n, rest)
      else .error (.before .loneSurrogate rest)
  | '\\' :: c :: rest => .error (.inside .unexpectedEscapeEnd (c :: rest))
  | ['\\'] => .error (.before .endOfString [])
  | [] => .error (.before .endOfString [])
  | rest => .error (.inside .unexpectedEscapeEnd rest)

/-- The character behind an escape by number. -/
def readNumbered (rest : List Char) : Except Fault (Char × List Char) :=
  match readUnit rest with
  | .error f => .error f
  | .ok (n, rest) =>
    if isTrailing n then .error (.before .loneSurrogate rest)
    else if isLeading n then readTrailing n rest
    else .ok (Char.ofNat n, rest)

/-- The character that an escape letter stands for. -/
def letterEscape? : Char → Option Char
  | '"' => some '"'
  | '\\' => some '\\'
  | '/' => some '/'
  | 'b' => some '\x08'
  | 'f' => some '\x0c'
  | 'n' => some '\n'
  | 'r' => some '\r'
  | 't' => some '\t'
  | _ => none

/-- The character behind an escape, after its backslash. -/
def readEscape : List Char → Except Fault (Char × List Char)
  | [] => .error (.before .endOfString [])
  | c :: rest =>
    if c = 'u' then readNumbered rest
    else match letterEscape? c with
      | some d => .ok (d, rest)
      | none => .error (.inside .invalidEscape (c :: rest))

/-- What follows an escape, after its backslash. -/
def skipEscape : List Char → Except Fault (List Char)
  | [] => .error (.before .endOfString [])
  | c :: rest =>
    if c = 'u' then (readUnit rest).map Prod.snd
    else match letterEscape? c with
      | some _ => .ok rest
      | none => .error (.inside .invalidEscape (c :: rest))

theorem length_lt_of_readUnit {cs rest : List Char} {n : Nat} (h : readUnit cs = .ok (n, rest)) :
    rest.length < cs.length := by
  unfold readUnit at h
  split at h
  · split at h
    · simp only [Except.ok.injEq, Prod.mk.injEq] at h
      obtain ⟨_, rfl⟩ := h
      simp
      omega
    · cases h
  · cases h

theorem length_lt_of_readTrailing {lead : Nat} {cs rest : List Char} {c : Char}
    (h : readTrailing lead cs = .ok (c, rest)) : rest.length < cs.length := by
  unfold readTrailing at h
  split at h
  · split at h
    · cases h
    · rename_i hu
      split at h
      · simp only [Except.ok.injEq, Prod.mk.injEq] at h
        obtain ⟨_, rfl⟩ := h
        have := length_lt_of_readUnit hu
        simp
        omega
      · cases h
  all_goals cases h

theorem length_lt_of_readEscape {cs rest : List Char} {c : Char}
    (h : readEscape cs = .ok (c, rest)) : rest.length < cs.length := by
  unfold readEscape at h
  split at h
  · cases h
  · split at h
    · unfold readNumbered at h
      split at h
      · cases h
      · rename_i hu
        have := length_lt_of_readUnit hu
        split at h
        · cases h
        · split at h
          · have := length_lt_of_readTrailing h
            simp
            omega
          · simp only [Except.ok.injEq, Prod.mk.injEq] at h
            obtain ⟨_, rfl⟩ := h
            simp
            omega
    · split at h
      · simp only [Except.ok.injEq, Prod.mk.injEq] at h
        obtain ⟨_, rfl⟩ := h
        simp
      · cases h

theorem length_lt_of_skipEscape {cs rest : List Char} (h : skipEscape cs = .ok rest) :
    rest.length < cs.length := by
  unfold skipEscape at h
  split at h
  · cases h
  · split at h
    · rename_i cs' _
      cases hu : readUnit cs' with
      | error f => simp [hu, Except.map] at h
      | ok p =>
        obtain ⟨n, after⟩ := p
        have := length_lt_of_readUnit hu
        simp only [hu, Except.map, Except.ok.injEq] at h
        subst h
        simp
        omega
    · split at h
      · simp only [Except.ok.injEq] at h
        subst h
        simp
      · cases h

/-! ### Strings -/

/-- The characters up to the closing quote, and what follows it. -/
def readChars (cs : List Char) : Except Fault (List Char × List Char) :=
  match cs with
  | [] => .error (.before .endOfString [])
  | '"' :: rest => .ok ([], rest)
  | '\\' :: rest =>
    match _h : readEscape rest with
    | .error f => .error f
    | .ok (c, rest) =>
      match readChars rest with
      | .error f => .error f
      | .ok (more, rest) => .ok (c :: more, rest)
  | c :: rest =>
    if c.toNat < 0x20 then .error (.before .controlCharacter rest)
    else match readChars rest with
      | .error f => .error f
      | .ok (more, rest) => .ok (c :: more, rest)
termination_by cs.length
decreasing_by
  · have := length_lt_of_readEscape _h
    simp
    omega
  · simp

/-- What follows the closing quote. -/
def skipChars (cs : List Char) : Except Fault (List Char) :=
  match cs with
  | [] => .error (.before .endOfString [])
  | '"' :: rest => .ok rest
  | '\\' :: rest =>
    match _h : skipEscape rest with
    | .error f => .error f
    | .ok rest => skipChars rest
  | c :: rest =>
    if c.toNat < 0x20 then .error (.before .controlCharacter (c :: rest))
    else skipChars rest
termination_by cs.length
decreasing_by
  · have := length_lt_of_skipEscape _h
    simp
    omega
  · simp

/-- The text of a string, and what follows it. -/
def readText (cs : List Char) : Except Fault (String × List Char) :=
  (readChars cs).map fun (s, rest) => (String.ofList s, rest)

end AppShell.Json
