/-
AppShell/Proofs/Storage/Ledger.lean

What was closed, and by whom.

A ledger lists the steps on the storage together with the mediums that somebody
closed directly, the newest first.  A step is noted right after the change that it
makes, before anybody is told of it.  From the ledger alone one reads off the flags
that a store was made with, whether it was closed, and which mediums were closed:
a store closes its medium when it is closed for the first time, unless it ignores
closes (`Ledger.closings`).

The main statements are `countP_closings_le_one` and `mem_closings_store_iff`: a
store closes its medium once at most, and it did so if and only if it was closed and
does not ignore this.
-/
import AppShell.Proofs.Storage.Reentry

namespace AppShell

variable {α : Type}

/-- A step on the storage, or a medium that is closed directly. -/
inductive ClosingStep where
  | storage (step : StorageStep)
  | closeMedium (m : Medium)

namespace ClosingStep

/-- What a step does to a shell if callbacks answer it. -/
def performWith (act : Shell.Act α) (sh : Shell α) : ClosingStep → Shell α
  | .storage step => step.performWith act sh
  | .closeMedium m => sh.mediumClose m

/-- The stations of a step, from the change that it makes on. -/
def stations (act : Shell.Act α) (tr : Answers ClosingStep α) (past : List ClosingStep)
    (sh : Shell α) (step : ClosingStep) : Stations ClosingStep α :=
  match step with
  | .storage (.write b value) => Shell.bindingStations act tr b (some value) (step :: past) sh
  | .storage (.remove b) => Shell.bindingStations act tr b none (step :: past) sh
  | .storage (.setConsent s levels) => Shell.consentStations act tr s levels (step :: past) sh
  | .storage (.replace c s) => Shell.installStations act tr c s (step :: past) sh
  | step => [⟨step :: past, step.performWith act sh⟩]

/-- A step makes no memory or store, grants nothing and closes nothing. -/
def KeepsBooks : ClosingStep → Prop
  | .storage (.newMemory _) | .storage (.newStore _ _) | .storage (.setConsent _ _)
  | .storage (.close _) | .closeMedium _ => False
  | _ => True

/-- How the steps are performed and noted. -/
def conduct (α : Type) : Conduct ClosingStep ClosingStep α where
  perform step act sh := step.performWith act sh
  stations step act tr past sh := step.stations act tr past sh

end ClosingStep

/-- Steps on the storage and direct closes, the newest first. -/
abbrev Ledger := List ClosingStep

namespace Ledger

/-- The steps on the storage. -/
def history : Ledger → History
  | [] => []
  | .storage step :: past => step :: history past
  | .closeMedium _ :: past => history past

/-- Every step refers to what was there before it. -/
def Valid : Ledger → Prop
  | [] => True
  | .storage step :: past => Valid past ∧ (history past).Refers step
  | .closeMedium m :: past => Valid past ∧ (history past).HasMedium m

/-- Whether a ledger is valid can be checked step by step. -/
def decideValid : (past : Ledger) → Decidable past.Valid
  | [] => isTrue trivial
  | .storage step :: past =>
    have := decideValid past
    inferInstanceAs (Decidable (Valid past ∧ (history past).Refers step))
  | .closeMedium m :: past =>
    have := decideValid past
    inferInstanceAs (Decidable (Valid past ∧ (history past).HasMedium m))

instance : DecidablePred Valid := decideValid

/-- The flags that a store was made with. -/
def config : Ledger → StoreId → Option StoreConfig
  | [], _ => none
  | .storage (.newStore _ c) :: past, s => if s = (history past).stores then some c else config past s
  | _ :: past, s => config past s

/-- Whether a store closes its medium. -/
def Owns (past : Ledger) (s : StoreId) : Prop :=
  (past.config s).map StoreConfig.ignoreClose = some false

/-- Whether a store was closed. -/
def closed : Ledger → StoreId → Bool
  | [], _ => false
  | .storage (.close s') :: past, s => s' == s || closed past s
  | _ :: past, s => closed past s

/-- Whether a memory was closed directly. -/
def closedDirectly : Ledger → MemoryId → Bool
  | [], _ => false
  | .closeMedium m :: past, i => m == .memory i || closedDirectly past i
  | _ :: past, i => closedDirectly past i

instance (past : Ledger) (s : StoreId) : Decidable (past.Owns s) :=
  inferInstanceAs (Decidable (_ = _))

/-- The close of a medium that a step makes, with the store that makes it, none for a direct one. -/
def closing? (past : Ledger) : ClosingStep → Option (Option StoreId × Medium)
  | .storage (.close s) =>
    if past.Owns s ∧ past.closed s = false then (past.history.mediumOf s).map fun m => (some s, m)
    else none
  | .closeMedium m => some (none, m)
  | _ => none

/-- The closes of mediums. -/
def closings : Ledger → List (Option StoreId × Medium)
  | [] => []
  | step :: past => (closing? past step).toList ++ closings past

variable {past : Ledger} {step : ClosingStep} {s : StoreId} {m : Medium}

/-! ### Stores and mediums of a ledger -/

theorem closing?_eq_store_iff : past.closing? step = some (some s, m) ↔
    step = .storage (.close s) ∧ past.Owns s ∧ past.closed s = false ∧
      past.history.mediumOf s = some m := by
  rcases step with step | m'
  · cases step with
    | close s' =>
      rw [closing?]
      split
      · next h =>
        rw [Option.map_eq_some_iff]
        constructor
        · rintro ⟨m', hm, he⟩
          obtain ⟨hs, rfl⟩ := Prod.mk.inj he
          obtain rfl := Option.some.inj hs
          exact ⟨rfl, h.1, h.2, hm⟩
        · rintro ⟨he, -, -, hm⟩
          obtain rfl := StorageStep.close.inj (ClosingStep.storage.inj he)
          exact ⟨m, hm, rfl⟩
      · next h =>
        refine ⟨nofun, ?_⟩
        rintro ⟨he, howns, hopen, -⟩
        obtain rfl := StorageStep.close.inj (ClosingStep.storage.inj he)
        exact absurd ⟨howns, hopen⟩ h
    | _ => simp [closing?]
  · simp [closing?]

theorem closing?_eq_direct_iff :
    past.closing? step = some (none, m) ↔ step = .closeMedium m := by
  rcases step with step | m'
  · cases step with
    | close s' =>
      rw [closing?]
      split
      · rcases past.history.mediumOf s' with - | m' <;> simp
      · simp
    | _ => simp [closing?]
  · simp [closing?]

theorem mem_closings_cons {c : Option StoreId × Medium} :
    c ∈ closings (step :: past) ↔ past.closing? step = some c ∨ c ∈ past.closings := by
  rw [closings, List.mem_append, Option.mem_toList]

/-- A medium that is there stays there. -/
theorem hasMedium_cons (h : past.history.HasMedium m) (step : ClosingStep) :
    (history (step :: past)).HasMedium m := by
  cases m with
  | web => trivial
  | memory i =>
    rcases step with step | m'
    · cases step with
      | newMemory label => exact Nat.lt_succ_of_lt h
      | _ => exact h
    · exact h

/-- A store is made over a medium that is there. -/
theorem hasMedium_of_mediumOf (hv : past.Valid) (h : past.history.mediumOf s = some m) :
    past.history.HasMedium m := by
  induction past with
  | nil => cases h
  | cons step past ih =>
    rcases step with step | m'
    · cases step with
      | newStore m' config =>
        -- the step that made the store refers to the medium
        by_cases hs : s = (history past).stores
        · rw [history, History.mediumOf, if_pos hs] at h
          obtain rfl := Option.some.inj h
          exact hasMedium_cons hv.2 _
        · rw [history, History.mediumOf, if_neg hs] at h
          exact hasMedium_cons (ih hv.1 h) _
      | _ => exact hasMedium_cons (ih hv.1 h) _
    · exact ih hv.1 h

theorem hasMedium_of_mem_closings (hv : past.Valid) {c : Option StoreId × Medium}
    (hc : c ∈ past.closings) : past.history.HasMedium c.2 := by
  induction past with
  | nil => cases hc
  | cons step past ih =>
    have hpast : Valid past := by cases step <;> exact hv.1
    rcases mem_closings_cons.1 hc with hc | hc
    · obtain ⟨s? | s, m⟩ := c
      · obtain rfl := closing?_eq_direct_iff.1 hc
        exact hv.2
      · obtain ⟨-, -, -, hm⟩ := closing?_eq_store_iff.1 hc
        exact hasMedium_cons (hasMedium_of_mediumOf hpast hm) step
    · exact hasMedium_cons (ih hpast hc) step

/-! ### Who closed what -/

/-- A store that was closed is there. -/
theorem lt_of_closed (hv : past.Valid) (h : past.closed s = true) : s < past.history.stores := by
  induction past with
  | nil => cases h
  | cons step past ih =>
    rcases step with step | m'
    · cases step with
      | newStore m' config => exact Nat.lt_succ_of_lt (ih hv.1 h)
      | close s' =>
        rw [closed, Bool.or_eq_true, beq_iff_eq] at h
        rcases h with rfl | h
        · exact hv.2
        · exact ih hv.1 h
      | _ => exact ih hv.1 h
    · exact ih hv.1 h

theorem closed_cons (h : past.closed s = true) (step : ClosingStep) :
    closed (step :: past) s = true := by
  rcases step with step | m'
  · cases step with
    | close s' => rw [closed, h, Bool.or_true]
    | _ => exact h
  · exact h

/-- A store that closed a medium was closed. -/
theorem closed_of_mem_closings (h : (some s, m) ∈ past.closings) : past.closed s = true := by
  induction past with
  | nil => cases h
  | cons step past ih =>
    rcases mem_closings_cons.1 h with h | h
    · obtain ⟨rfl, -⟩ := closing?_eq_store_iff.1 h
      simp [closed]
    · exact closed_cons (ih h) step

/-- A store closes its medium once at most. -/
theorem countP_closings_le_one (past : Ledger) (s : StoreId) :
    past.closings.countP (fun c => c.1 == some s) ≤ 1 := by
  induction past with
  | nil => exact Nat.zero_le 1
  | cons step past ih =>
    rcases hc : closing? past step with - | ⟨who, m⟩
    · rw [closings, hc]
      exact ih
    · rw [closings, hc, Option.toList_some, List.singleton_append]
      by_cases hs : who = some s
      · -- it has not closed it before
        subst hs
        obtain ⟨-, -, hopen, -⟩ := closing?_eq_store_iff.1 hc
        have hnone : (closings past).countP (fun c => c.1 == some s) = 0 := by
          rw [List.countP_eq_zero]
          rintro ⟨who, m'⟩ hmem hwho
          obtain rfl : who = some s := beq_iff_eq.1 hwho
          rw [closed_of_mem_closings hmem] at hopen
          cases hopen
        rw [List.countP_cons, hnone]
        simp
      · rw [List.countP_cons_of_neg (by simpa using hs)]
        exact ih

/-- The stores that closed their mediums are those that were closed, unless they ignore this. -/
theorem mem_closings_store_iff (hv : past.Valid) : (some s, m) ∈ past.closings ↔
    past.history.mediumOf s = some m ∧ past.Owns s ∧ past.closed s = true := by
  induction past with
  | nil => simp [closings, history, History.mediumOf]
  | cons step past ih =>
    rcases step with step | m'
    · rw [mem_closings_cons, ih hv.1, closing?_eq_store_iff]
      cases step with
      | newStore m' c =>
        by_cases hs : s = (history past).stores
        · -- the new store was not closed
          have hopen : closed past s = false := by
            refine Bool.eq_false_iff.2 fun h => ?_
            exact absurd (lt_of_closed hv.1 h) (hs ▸ Nat.lt_irrefl _)
          simp [closed, hopen]
        · simp [history, History.mediumOf, Owns, config, closed, hs]
      | close s' =>
        -- a store that was closed before has closed its medium then, and does not do so again
        have hsame : history (.storage (.close s') :: past) = .close s' :: history past := rfl
        have howns : Owns (.storage (.close s') :: past) s = Owns past s := rfl
        have hmedium : History.mediumOf (.close s' :: history past) s = (history past).mediumOf s :=
          rfl
        rw [hsame, howns, hmedium, closed]
        by_cases hs : s' = s
        · subst hs
          cases closed past s' <;> simp [and_comm]
        · simp [hs]
      | _ => simp [history, History.mediumOf, Owns, config, closed]
    · rw [mem_closings_cons, ih hv.1, closing?_eq_store_iff]
      simp [history, Owns, config, closed]

theorem mem_closings_direct_iff {i : MemoryId} :
    (none, .memory i) ∈ past.closings ↔ past.closedDirectly i = true := by
  induction past with
  | nil => simp [closings, closedDirectly]
  | cons step past ih =>
    rw [mem_closings_cons, closing?_eq_direct_iff, ih]
    rcases step with step | m'
    · simp [closedDirectly]
    · simp [closedDirectly]

end Ledger


end AppShell
