/-
AppShell/Proofs/Host/Configuration.lean

The configuration of the host, variable by variable.

A value is read without the white space at its ends, and a blank one as if it
were absent; for the variable that is a switch, the case of ASCII letters does not
count either.  `Respelled` says this of one value and knows nothing of how values
are read: environments whose values are respelled give one result
(`ofEnvironment_congr`).

Only the address can be at fault, and the fault names what is left of it without
the white space.  Each of the three settings is told by its own variable alone.

The main statement is `ofEnvironment_by_variable`.
-/
import Mathlib.Logic.Relation
import AppShell.Host.Config
import AppShell.Proofs.Text

namespace AppShell.Host

open AppShell.Text

/-! ### Spellings of a value -/

/-- A value and another spelling of it: with white space at the ends, with characters that have
the same form, or absent if it is blank. -/
inductive Respelled (form : Char → Char) : Option String → Option String → Prop
  | absent : Respelled form none none
  | blank {s : String} : (∀ c ∈ s.toList, isBlank c = true) → Respelled form (some s) none
  | padded {s word : String} (before behind : String) : (∀ c ∈ before.toList, isBlank c = true) →
      (∀ c ∈ behind.toList, isBlank c = true) → s.toList.map form = word.toList.map form →
      Respelled form (some s) (some (before ++ (word ++ behind)))

/-- Environments that hold the same values, however they are spelled; of the switch not even the
case of the ASCII letters counts, and other variables do not count at all. -/
structure Environment.Respelled (env other : Environment) : Prop where
  address : Relation.EqvGen (Host.Respelled id) (env "LISTEN_ADDR") (other "LISTEN_ADDR")
  root : Relation.EqvGen (Host.Respelled id) (env "SITE_ROOT") (other "SITE_ROOT")
  switch : Relation.EqvGen (Host.Respelled Char.toLower) (env "OPEN_BROWSER") (other "OPEN_BROWSER")

/-- The text that a value says: what is left of it without white space at its ends, if anything. -/
def IsSetTo (value : Option String) (text : String) : Prop :=
  ∃ s, value = some s ∧ trim s = text ∧ text ≠ ""

/-- The words that turn a switch off. -/
def offWords : List String := ["0", "false", "no", "off"]

namespace Config

variable {value value' : Option String} {env other : Environment} {cfg cfg' : Config}

/-! ### Values without white space -/

theorem trim_eq_empty {s : String} (h : ∀ c ∈ s.toList, isBlank c = true) : trim s = "" := by
  rw [trim, trimChars_eq_nil_iff.2 h, String.ofList_nil]

/-- A variable has a text when it is set to it, white space at the ends aside. -/
theorem nonBlank_eq_some_iff {text : String} : nonBlank value = some text ↔ IsSetTo value text := by
  rw [nonBlank, Option.filter_eq_some_iff, Option.map_eq_some_iff, decide_eq_true_eq]
  constructor
  · rintro ⟨⟨s, rfl, rfl⟩, hne⟩
    exact ⟨s, rfl, rfl, hne⟩
  · rintro ⟨s, rfl, rfl, hne⟩
    exact ⟨⟨s, rfl, rfl⟩, hne⟩

/-- White space at the ends, or a blank value for none, makes no difference to the text. -/
theorem nonBlank_of_respelled (h : Respelled id value value') : nonBlank value = nonBlank value' := by
  cases h with
  | absent => rfl
  | blank hs => simp [nonBlank, trim_eq_empty hs]
  | padded before behind hbefore hbehind hchars =>
    rw [List.map_id, List.map_id] at hchars
    simp only [nonBlank, Option.map_some, trim, String.toList_append,
      trimChars_pad hbefore hbehind, hchars]

/-- Values that say the same have the same text. -/
theorem nonBlank_congr (h : Relation.EqvGen (Respelled id) value value') :
    nonBlank value = nonBlank value' := by
  induction h with
  | rel _ _ h => exact nonBlank_of_respelled h
  | refl _ => rfl
  | symm _ _ _ ih => exact ih.symm
  | trans _ _ _ _ _ ih ih' => exact ih.trans ih'

/-! ### Switches -/

theorem toNat_ofNat_lower {c : Char} (h : c ≤ 'Z') :
    (Char.ofNat (c.toNat + 32)).toNat = c.toNat + 32 := by
  have hle : c.toNat ≤ 90 := h
  exact toNat_ofNat_ascii (by omega)

/-- Lowering an ASCII letter is lowering a character. -/
theorem lowerAscii_eq_toLower (c : Char) : lowerAscii c = c.toLower := by
  rw [lowerAscii]
  by_cases h : 'A' ≤ c ∧ c ≤ 'Z'
  · have hval : c.val ≥ 'A'.val ∧ c.val ≤ 'Z'.val := h
    have hle : c.toNat ≤ 90 := h.2
    have hlower : c.toLower = _ := dif_pos hval
    rw [if_pos h, hlower]
    refine Char.ext (UInt32.toNat_inj.1 ?_)
    show (Char.ofNat (c.toNat + 32)).toNat = (c.val + 32).toNat
    rw [toNat_ofNat_lower h.2, UInt32.toNat_add]
    show c.toNat + 32 = (c.toNat + 32) % 2 ^ 32
    omega
  · have hval : ¬ (c.val ≥ 'A'.val ∧ c.val ≤ 'Z'.val) := h
    have hlower : c.toLower = c := dif_neg hval
    rw [if_neg h, hlower]

/-- A letter is no white space in either case. -/
theorem isBlank_toLower (c : Char) : isBlank c.toLower = isBlank c := by
  rw [← lowerAscii_eq_toLower, lowerAscii]
  split
  · next h =>
    have hge : 65 ≤ c.toNat := h.1
    have hle : c.toNat ≤ 90 := h.2
    -- no range of white space meets the letters of ASCII
    have hletters (n : Nat) (hn : 65 ≤ n ∧ n ≤ 122) :
        (blankRanges.any fun r => decide (r.1 ≤ n) && decide (n ≤ r.2)) = false := by
      simp [blankRanges]
      omega
    rw [isBlank, inRanges, toNat_ofNat_lower h.2, isBlank, inRanges, hletters _ (by omega),
      hletters _ (by omega)]
  · rfl

theorem toList_toLower (s : String) : s.toLower.toList = s.toList.map Char.toLower :=
  String.toList_map

/-- White space is trimmed from a text before or after its letters are lowered. -/
theorem trimChars_map_toLower (cs : List Char) :
    trimChars (cs.map Char.toLower) = (trimChars cs).map Char.toLower := by
  have hblank : isBlank ∘ Char.toLower = isBlank := funext isBlank_toLower
  rw [trimChars, trimChars, List.dropWhile_map, hblank, ← List.map_reverse, List.dropWhile_map,
    hblank, List.map_reverse]

/-- A switch is read from one of four words that turn it on or one of four that turn it off, in any
case. -/
theorem switch?_eq (s : String) :
    switch? s = if (trim s).toLower ∈ ["1", "true", "yes", "on"] then some true
      else if (trim s).toLower ∈ offWords then some false else none := by
  have hlower : lowerAscii = Char.toLower := funext lowerAscii_eq_toLower
  have hword : String.ofList ((trimChars s.toList).map lowerAscii) = (trim s).toLower := by
    rw [hlower, ← String.toList_inj, String.toList_ofList, toList_toLower, trim,
      String.toList_ofList]
  rw [switch?, hword]
  rfl

/-- What a switch is set to; it is on by default. -/
def switchedOn (value : Option String) : Bool :=
  (value.bind switch?).getD true

/-- A switch is off exactly when the variable holds one of the words that turn it off. -/
theorem switchedOn_eq_false_iff :
    switchedOn value = false ↔ ∃ s, value = some s ∧ (trim s).toLower ∈ offWords := by
  rcases value with - | s
  · simp [switchedOn]
  have hother : (trim s).toLower ∈ offWords → (trim s).toLower ∉ ["1", "true", "yes", "on"] := by
    generalize (trim s).toLower = word
    intro h
    simp only [offWords, List.mem_cons, List.not_mem_nil, or_false] at h
    rcases h with rfl | rfl | rfl | rfl <;> decide
  rw [switchedOn, Option.bind_some, switch?_eq]
  by_cases hoff : (trim s).toLower ∈ offWords
  · simp [hoff, hother hoff]
  · by_cases hon : (trim s).toLower ∈ ["1", "true", "yes", "on"]
    · simp [hoff, hon]
    · simp [hoff, hon]

/-- Neither white space at the ends nor the case of ASCII letters moves a switch. -/
theorem switchedOn_of_respelled (h : Respelled Char.toLower value value') :
    switchedOn value = switchedOn value' := by
  cases h with
  | absent => rfl
  | blank hs =>
    have hempty : ("" : String).toLower = "" := by
      rw [← String.toList_inj, toList_toLower]
      rfl
    -- the empty word is in neither list
    rw [switchedOn, Option.bind_some, switch?_eq, trim_eq_empty hs, hempty]
    rfl
  | @padded s word before behind hbefore hbehind hchars =>
    have hword : (trim s).toLower = (trim (before ++ (word ++ behind))).toLower := by
      simp only [← String.toList_inj, toList_toLower, trim, String.toList_ofList,
        String.toList_append, trimChars_pad hbefore hbehind, ← trimChars_map_toLower, hchars]
    simp only [switchedOn, Option.bind_some, switch?_eq, hword]

/-- Values that say the same switch the same way. -/
theorem switchedOn_congr (h : Relation.EqvGen (Respelled Char.toLower) value value') :
    switchedOn value = switchedOn value' := by
  induction h with
  | rel _ _ h => exact switchedOn_of_respelled h
  | refl _ => rfl
  | symm _ _ _ ih => exact ih.symm
  | trans _ _ _ _ _ ih ih' => exact ih.trans ih'

/-! ### Results -/

/-- The text that is read as the address. -/
def addressText (value : Option String) : String :=
  (nonBlank value).getD defaultListenAddress

theorem ofEnvironment_eq (env : Environment) :
    ofEnvironment env = match SocketAddress.parse? (addressText (env "LISTEN_ADDR")) with
      | none => .error (.invalidListenAddress (addressText (env "LISTEN_ADDR")))
      | some address =>
        .ok ⟨address, nonBlank (env "SITE_ROOT"), switchedOn (env "OPEN_BROWSER")⟩ := rfl

/-- Environments that say the same give the same configuration, or the same error. -/
theorem ofEnvironment_congr (h : env.Respelled other) : ofEnvironment env = ofEnvironment other := by
  rw [ofEnvironment_eq, ofEnvironment_eq, addressText, nonBlank_congr h.address,
    nonBlank_congr h.root, switchedOn_congr h.switch, ← addressText]

/-- The address that is listened on by default. -/
def loopback : SocketAddress := ⟨.v4 [127, 0, 0, 1], 0, 8080⟩

/-- The default address can be read. -/
theorem parse?_default : SocketAddress.parse? defaultListenAddress = some loopback := by
  decide

/-- The address is the text of its variable, or the default when that has none. -/
theorem addressText_cases (value : Option String) :
    (∃ text, IsSetTo value text ∧ addressText value = text) ∨
      (¬ ∃ text, IsSetTo value text) ∧ addressText value = defaultListenAddress := by
  rcases hvalue : nonBlank value with - | text
  · refine .inr ⟨?_, by rw [addressText, hvalue]; rfl⟩
    rintro ⟨text, htext⟩
    rw [nonBlank_eq_some_iff.2 htext] at hvalue
    cases hvalue
  · exact .inl ⟨text, nonBlank_eq_some_iff.1 hvalue, by rw [addressText, hvalue]; rfl⟩

/-- Only an address that was given can be at fault. -/
theorem ofEnvironment_eq_error_iff {fault : ConfigFault} :
    ofEnvironment env = .error fault ↔ ∃ text, IsSetTo (env "LISTEN_ADDR") text ∧
      SocketAddress.parse? text = none ∧ fault = .invalidListenAddress text := by
  rw [ofEnvironment_eq]
  rcases addressText_cases (env "LISTEN_ADDR") with ⟨text, hsaid, htext⟩ | ⟨hnone, htext⟩
  · have hunique : ∀ word, IsSetTo (env "LISTEN_ADDR") word → word = text := by
      intro word hword
      have h := (nonBlank_eq_some_iff.2 hword).symm.trans (nonBlank_eq_some_iff.2 hsaid)
      exact Option.some.inj h
    rw [htext]
    rcases hparse : SocketAddress.parse? text with - | address
    · refine ⟨fun h => ⟨text, hsaid, hparse, (Except.error.inj h).symm⟩, ?_⟩
      rintro ⟨word, hword, -, rfl⟩
      rw [hunique word hword]
    · refine ⟨nofun, ?_⟩
      rintro ⟨word, hword, hnone, -⟩
      rw [hunique word hword, hparse] at hnone
      cases hnone
  · rw [htext, parse?_default]
    exact ⟨nofun, fun ⟨text, hsaid, _⟩ => absurd ⟨text, hsaid⟩ hnone⟩

/-- Each field of a configuration comes from its own variable. -/
theorem ofEnvironment_eq_ok (h : ofEnvironment env = .ok cfg) :
    SocketAddress.parse? (addressText (env "LISTEN_ADDR")) = some cfg.listenAddress ∧
      cfg.siteRoot = nonBlank (env "SITE_ROOT") ∧
      cfg.openBrowser = switchedOn (env "OPEN_BROWSER") := by
  rw [ofEnvironment_eq] at h
  split at h
  · cases h
  · next address hparse =>
    cases h
    exact ⟨hparse, rfl, rfl⟩

/-- The address that a value gives: the one that it says, or the default one if it says nothing. -/
def Gives (value : Option String) (address : SocketAddress) : Prop :=
  (∃ text, IsSetTo value text ∧ SocketAddress.parse? text = some address) ∨
    (¬ ∃ text, IsSetTo value text) ∧ address = loopback

/-- An address that can be read is the one the variable gives. -/
theorem gives_of_parse? {address : SocketAddress}
    (h : SocketAddress.parse? (addressText value) = some address) : Gives value address := by
  rcases addressText_cases value with ⟨text, hsaid, htext⟩ | ⟨hnone, htext⟩
  · exact .inl ⟨text, hsaid, htext ▸ h⟩
  · rw [htext, parse?_default] at h
    exact .inr ⟨hnone, (Option.some.inj h).symm⟩

/-- A text that a value says neither starts nor ends with white space. -/
theorem solid_of_isSetTo {text : String} (h : IsSetTo value text) :
    (∃ c, text.toList.head? = some c ∧ isBlank c = false) ∧
      ∃ c, text.toList.getLast? = some c ∧ isBlank c = false := by
  obtain ⟨s, -, rfl, hne⟩ := h
  have hchars : (trim s).toList = trimChars s.toList := by rw [trim, String.toList_ofList]
  have hnil : trimChars s.toList ≠ [] := fun hnil => hne (by rw [trim, hnil, String.ofList_nil])
  rw [hchars]
  have hhead := List.head?_eq_some_head hnil
  have hlast := List.getLast?_eq_some_getLast hnil
  exact ⟨⟨_, hhead, isBlank_head?_trimChars hhead⟩, ⟨_, hlast, isBlank_getLast?_trimChars hlast⟩⟩

/-- The configuration does not depend on how the values are spelled.  It is refused exactly where
an address is given that is none, whatever the other variables hold; else each setting follows from
its own variable, and is the same in any two environments that agree on this variable. -/
theorem ofEnvironment_by_variable (env : Environment) :
    (∀ other, env.Respelled other → ofEnvironment other = ofEnvironment env) ∧
    (∀ fault, ofEnvironment env = .error fault ↔ ∃ text, IsSetTo (env "LISTEN_ADDR") text ∧
      SocketAddress.parse? text = none ∧ fault = .invalidListenAddress text ∧
      fault.message =
        "invalid LISTEN_ADDR '" ++ text ++ "': invalid socket address syntax") ∧
    (∀ cfg, ofEnvironment env = .ok cfg → Gives (env "LISTEN_ADDR") cfg.listenAddress ∧
      (∀ root, cfg.siteRoot = some root ↔ IsSetTo (env "SITE_ROOT") root) ∧
      (∀ root, cfg.siteRoot = some root →
        (∃ c, root.toList.head? = some c ∧ isBlank c = false) ∧
          ∃ c, root.toList.getLast? = some c ∧ isBlank c = false) ∧
      (cfg.openBrowser = false ↔
        ∃ s, env "OPEN_BROWSER" = some s ∧ (trim s).toLower ∈ offWords)) ∧
    (∀ other cfg cfg', ofEnvironment env = .ok cfg → ofEnvironment other = .ok cfg' →
      (env "LISTEN_ADDR" = other "LISTEN_ADDR" → cfg.listenAddress = cfg'.listenAddress) ∧
      (env "SITE_ROOT" = other "SITE_ROOT" → cfg.siteRoot = cfg'.siteRoot) ∧
      (env "OPEN_BROWSER" = other "OPEN_BROWSER" → cfg.openBrowser = cfg'.openBrowser)) := by
  refine ⟨fun other h => (ofEnvironment_congr h).symm, fun fault => ?_, fun cfg h => ?_,
    fun other cfg cfg' h h' => ?_⟩
  · rw [ofEnvironment_eq_error_iff]
    refine exists_congr fun text => and_congr_right fun _ => and_congr_right fun _ => ?_
    exact ⟨fun he => ⟨he, by rw [he]; rfl⟩, And.left⟩
  · obtain ⟨haddress, hroot, hswitch⟩ := ofEnvironment_eq_ok h
    have hsaid (root : String) : cfg.siteRoot = some root ↔ IsSetTo (env "SITE_ROOT") root := by
      rw [hroot, nonBlank_eq_some_iff]
    exact ⟨gives_of_parse? haddress, hsaid, fun root h => solid_of_isSetTo ((hsaid root).1 h),
      by rw [hswitch, switchedOn_eq_false_iff]⟩
  · obtain ⟨haddress, hroot, hswitch⟩ := ofEnvironment_eq_ok h
    obtain ⟨haddress', hroot', hswitch'⟩ := ofEnvironment_eq_ok h'
    -- each setting is a function of its own variable, for the address under the condition that it
    -- can be read
    refine ⟨fun he => ?_, fun he => ?_, fun he => ?_⟩
    · rw [he, haddress'] at haddress
      exact (Option.some.inj haddress).symm
    · rw [hroot, hroot', he]
    · rw [hswitch, hswitch', he]

/-- An environment without white space. -/
def plainEnvironment : Environment
  | "LISTEN_ADDR" => some "0.0.0.0:3000"
  | "OPEN_BROWSER" => some "off"
  | _ => none

/-- The same environment in another spelling, with a blank value in the place of an absent one. -/
def spacedEnvironment : Environment
  | "LISTEN_ADDR" => some " 0.0.0.0:3000\u3000"
  | "SITE_ROOT" => some "\t\u00A0"
  | "OPEN_BROWSER" => some "OfF\n"
  | _ => none

/-- White space and upper-case letters make another environment that says the same. -/
theorem respelled_spaced : plainEnvironment.Respelled spacedEnvironment where
  address := .rel _ _ (@Respelled.padded id _ "0.0.0.0:3000" " " "\u3000"
    (List.all_eq_true.1 (by decide)) (List.all_eq_true.1 (by decide)) rfl)
  root := .symm _ _ (.rel _ _ (.blank (List.all_eq_true.1 (by decide))))
  switch := .rel _ _ (@Respelled.padded Char.toLower _ "OfF" "" "\n"
    (List.all_eq_true.1 (by decide)) (List.all_eq_true.1 (by decide)) (by decide))

/-- Spaces, a wide blank and capitals leave the configuration as it is. -/
theorem ofEnvironment_by_variable_spaced :
    plainEnvironment.Respelled spacedEnvironment ∧
      ofEnvironment spacedEnvironment = .ok ⟨⟨.v4 [0, 0, 0, 0], 0, 3000⟩, none, false⟩ :=
  ⟨respelled_spaced,
    ((ofEnvironment_by_variable plainEnvironment).1 spacedEnvironment respelled_spaced).trans
      (by decide)⟩

end Config

end AppShell.Host
