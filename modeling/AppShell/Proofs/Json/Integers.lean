/-
AppShell/Proofs/Json/Integers.lean

The integers among the numbers.

A number is an integer if it has neither point nor exponent and fits into 64 bits
(`Literal.value_eq_int_iff`): its digits are taken up one by one while they stay
within the limit of a significand (`exists_absorb`), and then the sign decides
which of the two ranges counts.  A minus in front of zero makes a double.

A number that is no integer is a double or out of range.  With more than 328
digits it is out of range: the significand has room for twenty of them at most,
and each of the others is a factor ten, of which a double has 308
(`Numeral.value_of_long`).
-/
import AppShell.Proofs.Json.Values

namespace AppShell.Json

open AppShell.Decimal

/-! ### Digits within a limit -/

/-- Each digit more is a factor ten at least. -/
theorem mul_pow_le_ofDigitChars (ds : List Char) (acc : Nat) :
    acc * 10 ^ ds.length ≤ Nat.ofDigitChars 10 ds acc := by
  induction ds generalizing acc with
  | nil => exact Nat.le_of_eq (Nat.mul_one acc)
  | cons d ds ih =>
    rw [Nat.ofDigitChars_cons, List.length_cons, Nat.pow_succ, Nat.mul_comm (10 ^ _),
      ← Nat.mul_assoc]
    refine Nat.le_trans (Nat.mul_le_mul_right _ ?_) (ih _)
    omega

theorem le_ofDigitChars (ds : List Char) (acc : Nat) : acc ≤ Nat.ofDigitChars 10 ds acc :=
  Nat.le_trans (Nat.le_mul_of_pos_right acc (Nat.pow_pos (by decide)))
    (mul_pow_le_ofDigitChars ds acc)

/-- Digits are taken up from the front until the next one would pass the limit. -/
theorem exists_absorb (limit acc : Nat) (ds : List Char) :
    ∃ taken left, ds = taken ++ left ∧
      absorb limit acc ds = (Nat.ofDigitChars 10 taken acc, left) ∧
      (acc ≤ limit → Nat.ofDigitChars 10 taken acc ≤ limit) ∧
      ∀ d ∈ left.head?, limit < 10 * Nat.ofDigitChars 10 taken acc + digitValue d := by
  induction ds generalizing acc with
  | nil => exact ⟨[], [], rfl, rfl, id, fun d hd => nomatch hd⟩
  | cons d ds ih =>
    rw [absorb, Nat.mul_comm acc]
    by_cases hlimit : limit < 10 * acc + digitValue d
    · rw [if_pos hlimit]
      refine ⟨[], d :: ds, rfl, rfl, id, fun e he => ?_⟩
      obtain rfl := Option.some.inj he
      exact hlimit
    · obtain ⟨taken, left, rfl, habsorb, hwithin, hnext⟩ := ih (10 * acc + digitValue d)
      rw [if_neg hlimit]
      exact ⟨d :: taken, left, rfl, habsorb, fun _ => hwithin (Nat.not_lt.1 hlimit), hnext⟩

/-- All digits are taken up exactly if their number stays within the limit. -/
theorem absorb_eq_nil_iff {limit acc : Nat} {ds : List Char} {n : Nat} (hacc : acc ≤ limit) :
    absorb limit acc ds = (n, []) ↔
      Nat.ofDigitChars 10 ds acc ≤ limit ∧ Nat.ofDigitChars 10 ds acc = n := by
  obtain ⟨taken, left, rfl, habsorb, hwithin, hnext⟩ := exists_absorb limit acc ds
  rw [habsorb, Prod.mk.injEq]
  cases left with
  | nil =>
    rw [List.append_nil]
    exact ⟨fun h => ⟨hwithin hacc, h.1⟩, fun h => ⟨h.2, rfl⟩⟩
  | cons d left =>
    -- the next digit alone is too much
    have hover : limit < Nat.ofDigitChars 10 (taken ++ d :: left) acc := by
      rw [Nat.ofDigitChars_append, Nat.ofDigitChars_cons]
      exact Nat.lt_of_lt_of_le (hnext d rfl) (le_ofDigitChars left _)
    refine iff_of_false (fun h => nomatch h.2) fun h => ?_
    exact Nat.not_le.2 hover h.1

namespace Literal

variable {n : Literal} {i : Int}

/-! ### Integers -/

/-- The digits before the point with the sign. -/
def signedWhole (n : Literal) : Int :=
  if n.negative then -(Nat.ofDigitChars 10 n.whole 0 : Int) else Nat.ofDigitChars 10 n.whole 0

/-- A literal is an integer if it has neither point nor exponent, fits into 64 bits with a sign or
without one, and is not zero with a minus in front. -/
theorem integer?_eq_some_iff :
    n.integer? = some i ↔ n.fraction = [] ∧ n.exponent = none ∧ i = n.signedWhole ∧
      (n.negative = true → i < 0) ∧ -0x8000000000000000 ≤ i ∧ i < 0x10000000000000000 := by
  obtain ⟨negative, whole, fraction, exponent⟩ := n
  rcases fraction with - | ⟨c, fraction⟩
  · rcases exponent with - | e
    · -- digits are taken in as long as they stay within the limit: all of them, if the whole number
      -- does
      have hall : absorb significandLimit 0 whole = (Nat.ofDigitChars 10 whole 0, []) ↔ _ :=
        absorb_eq_nil_iff (Nat.zero_le significandLimit)
      rw [integer?, signedWhole]
      by_cases hfits : Nat.ofDigitChars 10 whole 0 ≤ significandLimit
      · rw [hall.2 ⟨hfits, rfl⟩]
        unfold significandLimit at hfits
        cases negative with
        | false =>
          simp only [Bool.not_false, if_true, Option.some.injEq, Bool.false_eq_true, if_false,
            false_implies, true_and]
          omega
        | true =>
          simp only [Bool.not_true, Bool.false_eq_true, if_false, if_true,
            Option.ite_none_right_eq_some, Option.some.injEq, true_implies, true_and]
          omega
      · -- a digit is left over
        rcases h : absorb significandLimit 0 whole with ⟨acc, - | ⟨d, left⟩⟩
        · exact absurd ((absorb_eq_nil_iff (Nat.zero_le _)).1 h).1 hfits
        · unfold significandLimit at hfits
          cases negative <;> simp <;> omega
    · simp [integer?]
  · simp [integer?]

/-- A literal that is no integer is a double, or out of range. -/
theorem value_of_integer?_eq_none (h : n.integer? = none) :
    (∃ d, n.value = .ok (.double d)) ∨ ∃ excess, n.value = .error excess := by
  simp only [value, h]
  split
  · split
    · exact .inl ⟨_, rfl⟩
    · exact .inr ⟨_, rfl⟩
  · split
    · split
      · exact .inl ⟨_, rfl⟩
      · exact .inr ⟨_, rfl⟩
    · split
      · exact .inr ⟨_, rfl⟩
      · exact .inl ⟨_, rfl⟩

/-- The value of a literal is an integer exactly if the literal is one. -/
theorem value_eq_int_iff :
    n.value = .ok (.int i) ↔ n.fraction = [] ∧ n.exponent = none ∧ i = n.signedWhole ∧
      (n.negative = true → i < 0) ∧ -0x8000000000000000 ≤ i ∧ i < 0x10000000000000000 := by
  rw [← integer?_eq_some_iff]
  rcases h : n.integer? with - | j
  · refine iff_of_false (fun hvalue => ?_) (fun hnone => nomatch hnone)
    rcases value_of_integer?_eq_none h with ⟨d, hd⟩ | ⟨excess, he⟩
    · rw [hd] at hvalue
      cases hvalue
    · rw [he] at hvalue
      cases hvalue
  · simp only [value, h, Except.ok.injEq, Json.int.injEq, Option.some.injEq]

end Literal

/-! ### Too many digits -/

theorem divNearest_pos {num den : Nat} (hden : 0 < den) (h : den ≤ num) :
    0 < Binary64.divNearest num den := by
  have hquotient : 0 < num / den := Nat.div_pos h hden
  unfold Binary64.divNearest
  dsimp only
  split
  · exact hquotient
  · split
    · exact Nat.succ_pos _
    · split
      · exact hquotient
      · exact Nat.succ_pos _

theorem significand_of_ofFields? {negative : Bool} {m : Nat} {e : Int} {x : Binary64}
    (h : Binary64.ofFields? negative m e = some x) : x.significand = m := by
  unfold Binary64.ofFields? at h
  split at h
  · obtain rfl := Option.some.inj h
    rfl
  · cases h

/-- The double of a positive number is not zero. -/
theorem isZero_of_ofNat? {n : Nat} {x : Binary64} (hpos : 0 < n)
    (h : Binary64.ofNat? n = some x) : x.isZero = false := by
  rw [Binary64.ofNat?, Binary64.round, if_neg (Nat.ne_of_gt hpos)] at h
  have hlog : Binary64.floorLog n 1 ≤ Nat.log2 n := by
    have hone : Nat.log2 1 = 0 := by decide
    unfold Binary64.floorLog
    rw [hone]
    dsimp only
    split <;> omega
  -- the least digit that is kept is worth no more than the number
  have hkept (e : Int) (he : e = max (-1074) (Binary64.floorLog n 1 - 52)) :
      1 <<< e.toNat ≤ n <<< (-e).toNat := by
    rw [Nat.shiftLeft_eq, Nat.shiftLeft_eq, Nat.one_mul]
    calc 2 ^ e.toNat ≤ 2 ^ Nat.log2 n := Nat.pow_le_pow_right (by decide) (by omega)
      _ ≤ n := Nat.log2_self_le (Nat.ne_of_gt hpos)
      _ ≤ n * 2 ^ (-e).toNat := Nat.le_mul_of_pos_right n (Nat.pow_pos (by decide))
  have hunit (k : Nat) : 0 < 1 <<< k := by
    rw [Nat.one_shiftLeft]
    exact Nat.two_pow_pos k
  have hnearest := divNearest_pos (hunit _) (hkept _ rfl)
  have hsignificand : 0 < x.significand := by
    dsimp only at h
    split at h
    · rw [significand_of_ofFields? h]
      decide
    · rw [significand_of_ofFields? h]
      exact hnearest
  exact beq_eq_false_iff_ne.2 (Nat.ne_of_gt hsignificand)

/-- Nothing but zero can be multiplied by a power of ten that is no double. -/
theorem scaled?_eq_none {significand : Nat} {e : Int} (hpos : 0 < significand)
    (he : (powerLimit : Int) < e) : scaled? significand e = none := by
  rw [scaled?, Option.bind_eq_none_iff]
  intro x hx
  rw [if_neg (by omega), mulPower, if_pos (by omega), isZero_of_ofNat? hpos hx,
    if_neg Bool.false_ne_true]

/-- At most twenty digits that do not begin with a zero are within the limit of a significand. -/
theorem length_le_of_significandLimit {d : Char} {ds : List Char} (hd : 0 < digitValue d)
    (h : Nat.ofDigitChars 10 (d :: ds) 0 ≤ significandLimit) : ds.length < 20 := by
  rw [Nat.ofDigitChars_cons, Nat.mul_zero, Nat.zero_add] at h
  have hfirst : 1 * 10 ^ ds.length ≤ digitValue d * 10 ^ ds.length := Nat.mul_le_mul_right _ hd
  have hpower : 10 ^ ds.length < 10 ^ 20 := by
    refine Nat.lt_of_le_of_lt ?_ (show significandLimit < 10 ^ 20 by decide)
    rw [← Nat.one_mul (10 ^ ds.length)]
    exact Nat.le_trans hfirst (Nat.le_trans (mul_pow_le_ofDigitChars ds _) h)
  exact (Nat.pow_lt_pow_iff_right (by decide)).1 hpower

/-- More than one digit does not begin with a zero. -/
theorem Whole.exists_first {ds cs rest : List Char} (h : Whole ds cs rest) (hlong : 1 < ds.length) :
    ∃ d ds', ds = d :: ds' ∧ 0 < digitValue d ∧ digitValue d ≤ 9 := by
  cases h with
  | zero => exact absurd hlong (Nat.lt_irrefl 1)
  | @digits d ds' cs rest hd hdigits =>
    obtain ⟨hzero, hnine⟩ := Char.isDigit_iff_toNat.1 (hdigits.digits d List.mem_cons_self)
    have hnine : d.toNat ≤ 57 := hnine
    have hne : d.toNat ≠ '0'.toNat := fun he => hd (Char.toNat_inj.1 he)
    refine ⟨d, ds', rfl, ?_, ?_⟩
    · show 0 < d.toNat - '0'.toNat
      omega
    · show d.toNat - 48 ≤ 9
      omega

/-- The digits of a number without point and exponent that are left over are factors ten. -/
theorem Literal.value_of_absorb {n : Literal} (hfraction : n.fraction = [])
    (hexponent : n.exponent = none) {m : Nat} {left : List Char}
    (habsorb : absorb significandLimit 0 n.whole = (m, left)) (hleft : left ≠ []) :
    n.value = match scaled? m left.length with
      | some d => .ok (.double (d.withSign n.negative))
      | none => .error 0 := by
  have hinteger : n.integer? = none := by
    rw [integer?, hfraction, hexponent, habsorb]
    cases left with
    | nil => exact absurd rfl hleft
    | cons d left => rfl
  have hsignificand : n.significand = (m, (left.length : Int)) := by
    rw [significand, habsorb, hfraction]
    simp [absorb]
  rcases hscaled : scaled? m left.length with - | d
  · simp only [value, hinteger, hexponent, hsignificand, hscaled]
  · simp only [value, hinteger, hexponent, hsignificand, hscaled]

/-- A number of more than 328 digits without point and exponent is out of range. -/
theorem Numeral.value_of_long {n : Literal} {cs rest : List Char} (h : Numeral n cs rest)
    (hfraction : n.fraction = []) (hexponent : n.exponent = none) (hlong : 328 < n.whole.length) :
    n.value = .error 0 := by
  obtain ⟨cs', rest', hwhole⟩ : ∃ cs' rest', Whole n.whole cs' rest' := by
    rcases h with ⟨-, ⟨hwhole, -, -⟩⟩ | ⟨-, ⟨hwhole, -, -⟩⟩
    · exact ⟨_, _, hwhole⟩
    · exact ⟨_, _, hwhole⟩
  obtain ⟨d, ds, hds, hpos, hnine⟩ := hwhole.exists_first (by omega)
  obtain ⟨taken, left, hsplit, habsorb, hwithin, hnext⟩ :=
    exists_absorb significandLimit 0 n.whole
  -- what is left over stands for a power of ten beyond all doubles
  have hlength := congrArg List.length hsplit
  rw [List.length_append] at hlength
  rcases taken with - | ⟨t, taken⟩
  · -- one digit is always within the limit
    rw [List.nil_append, hds] at hsplit
    have hfirst := hnext d (by rw [← hsplit]; rfl)
    rw [Nat.ofDigitChars_nil] at hfirst
    unfold significandLimit at hfirst
    omega
  · obtain rfl : d = t := by
      rw [hds] at hsplit
      exact (List.cons.inj hsplit).1
    have htaken := length_le_of_significandLimit hpos (hwithin (Nat.zero_le _))
    rw [List.length_cons] at hlength
    have hsignificand : 0 < Nat.ofDigitChars 10 (d :: taken) 0 := by
      rw [Nat.ofDigitChars_cons, Nat.mul_zero, Nat.zero_add]
      exact Nat.lt_of_lt_of_le hpos (le_ofDigitChars taken _)
    have hleft : left ≠ [] := List.ne_nil_of_length_pos (by omega)
    have hpower : (powerLimit : Int) < left.length := by
      unfold powerLimit
      omega
    rw [Literal.value_of_absorb hfraction hexponent habsorb hleft,
      scaled?_eq_none hsignificand hpower]

/-! ### Numbers as trees -/

namespace Tree

variable {n : Literal} {depth : Nat}

/-- A number has an integer for its value exactly if it is one of 64 bits. -/
theorem value?_number_eq_int_iff {i : Int} :
    (number n).value? depth = some (.int i) ↔
      n.fraction = [] ∧ n.exponent = none ∧ i = n.signedWhole ∧ (n.negative = true → i < 0) ∧
        -0x8000000000000000 ≤ i ∧ i < 0x10000000000000000 :=
  value?_number_eq_some_iff.trans Literal.value_eq_int_iff

/-- A number that is too long has no value. -/
theorem value?_number_of_long {cs rest : List Char} (h : Numeral n cs rest)
    (hfraction : n.fraction = []) (hexponent : n.exponent = none) (hlong : 328 < n.whole.length) :
    (number n).value? depth = none := by
  refine Option.eq_none_iff_forall_ne_some.2 fun v hv => ?_
  rw [value?_number_eq_some_iff, h.value_of_long hfraction hexponent hlong] at hv
  cases hv

end Tree

end AppShell.Json
