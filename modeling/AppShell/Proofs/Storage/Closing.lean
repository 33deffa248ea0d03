/-
AppShell/Proofs/Storage/Closing.lean

Flags and closes leave the data alone.

Two runs that take the same steps, but for the flags of their stores and but for
closes, show the same: the same is read, delivered and told to watchers, and every
memory holds the same at every station (`SameView`).  What flags and closes are
there for is read off the ledger of a run (`Settled`): a store reports a level as
granted if it always does or if it was granted, and it closes its medium when it is
closed for the first time, unless it ignores this.

The main statement is `closing_leaves_data_alone`.
-/
import AppShell.Proofs.Storage.Books
import AppShell.Proofs.Storage.Twins

namespace AppShell

variable {α : Type}

namespace Shell

/-- The same was recorded but for closes, the memories hold the same, and the same is read. -/
structure SameView (sh sh' : Shell α) : Prop where
  log : (sh.log.filter fun e => !e.isClose) = sh'.log.filter fun e => !e.isClose
  memories : (sh.memories.map fun mem => (mem.label, mem.items)) =
    sh'.memories.map fun mem => (mem.label, mem.items)
  read : ∀ source key level, (sh.read source key level).1 = (sh'.read source key level).1

theorem Alike.sameView {sh sh' : Shell α} (h : Alike sh sh') : SameView sh sh' where
  log := h.look (f := fun sh => sh.log.filter fun e => !e.isClose) fun sh => by simp [plain]
  memories := h.look (f := fun sh => sh.memories.map fun mem => (mem.label, mem.items)) fun sh => by
    simp [plain, Memory.plain, Function.comp_def]
  read source key level := h.read_fst source key level

/-- What a store reports as granted, and what was closed, is what the ledger says. -/
structure Settled (past : Ledger) (sh : Shell α) : Prop where
  /-- A store reports a level if it always does or if the level was granted last. -/
  consent : ∀ (s : StoreId) st, sh.stores[s]? = some st → ∃ c, past.config s = some c ∧
    ∀ level, st.hasConsent level = (c.alwaysGranted || past.history.permits s level)
  /-- A store is closed once a step has closed it; no other step does this, nor does a replacement. -/
  closed : ∀ (s : StoreId) st, sh.stores[s]? = some st → st.closed = past.closed s
  /-- A store closes a medium once at most. -/
  once : ∀ s, (past.closings.countP fun c => c.1 == some s) ≤ 1
  /-- From its first close on, a store that does not ignore closes has closed its medium. -/
  owners : ∀ s m, (some s, m) ∈ past.closings ↔
    past.history.mediumOf s = some m ∧ past.Owns s ∧ past.closed s = true
  /-- The closes that are recorded are these and the direct ones. -/
  closes : sh.closes = past.closings.reverse.filterMap fun c => sh.closeOf? c.2
  /-- A memory that was not closed directly was closed by a store. -/
  memory : ∀ (i : MemoryId) mem, sh.memories[i]? = some mem → past.closedDirectly i = false →
    (mem.closed = true ↔
      ∃ s, past.history.mediumOf s = some (.memory i) ∧ past.Owns s ∧ past.closed s = true)

/-- Who agrees with the ledger is settled. -/
theorem settled_of_books {past : Ledger} {sh : Shell α} (hv : past.Valid) (h : Books past sh) :
    Settled past sh where
  consent s st hs := by
    have hterms := h.terms s st hs
    refine ⟨st.config, hterms.config, fun level => ?_⟩
    rw [Store.hasConsent, hterms.consent]
  closed s st hs := (h.terms s st hs).closed
  once s := past.countP_closings_le_one s
  owners s m := Ledger.mem_closings_store_iff hv
  closes := h.closes
  memory i mem hi hdirect := by
    -- what is left are the closes that stores made
    have hnot : (none, .memory i) ∉ past.closings := by
      rw [Ledger.mem_closings_direct_iff, hdirect]
      exact Bool.false_ne_true
    rw [h.memory i mem hi]
    constructor
    · rintro ⟨⟨who, m⟩, hc, rfl⟩
      rcases who with - | s
      · exact absurd hc hnot
      · exact ⟨s, (Ledger.mem_closings_store_iff hv).1 hc⟩
    · rintro ⟨s, hs⟩
      exact ⟨_, (Ledger.mem_closings_store_iff hv).2 hs, rfl⟩

/-- Of what was there, nothing was closed, and no close was recorded. -/
structure ClosesNone (sh sh' : Shell α) : Prop where
  stores : ∀ (s : StoreId) st, sh.stores[s]? = some st →
    ∃ st', sh'.stores[s]? = some st' ∧ st'.closed = st.closed
  memories : ∀ (i : MemoryId) mem, sh.memories[i]? = some mem →
    ∃ mem', sh'.memories[i]? = some mem' ∧ mem'.closed = mem.closed
  closes : sh'.closes = sh.closes

namespace ClosesNone

variable {sh sh' sh'' : Shell α}

theorem trans (h : ClosesNone sh sh') (h' : ClosesNone sh' sh'') : ClosesNone sh sh'' where
  stores s st hs := by
    obtain ⟨st', hs', hclosed⟩ := h.stores s st hs
    obtain ⟨st'', hs'', hclosed'⟩ := h'.stores s st' hs'
    exact ⟨st'', hs'', hclosed'.trans hclosed⟩
  memories i mem hi := by
    obtain ⟨mem', hi', hclosed⟩ := h.memories i mem hi
    obtain ⟨mem'', hi'', hclosed'⟩ := h'.memories i mem' hi'
    exact ⟨mem'', hi'', hclosed'.trans hclosed⟩
  closes := h'.closes.trans h.closes

theorem of_sameBooks (h : SameBooks sh sh') : ClosesNone sh sh' where
  stores s st hs := by
    obtain ⟨st', hs', hbare⟩ := h.symm.exists_store hs
    exact ⟨st', hs', (Store.mk.inj hbare).2.2.2.2.2⟩
  memories i mem hi := by
    obtain ⟨mem', hi', hbare⟩ := h.symm.exists_memory hi
    exact ⟨mem', hi', (Memory.mk.inj hbare).2.2⟩
  closes := h.closes

/-- Nothing was closed since a shell. -/
def Since (sh : Shell α) (_ : Unit) (_ : List Unit) (sh' : Shell α) : Prop :=
  ClosesNone sh sh'

/-- A replacement closes nothing, unless a callback does. -/
theorem replaceStore {act : Act α} (hact : ∀ call sh, ClosesNone sh (act call sh)) (c : ContextId)
    (s : StoreId) (sh : Shell α) : ClosesNone sh (Shell.replaceStore act c s sh).2 := by
  have hkeeps : Keeps (Since sh) act fun _ _ _ => [] :=
    fun call _ _ sh' h => .refl (h.trans (hact call sh'))
  have hrecords : OfRecords (Since sh) :=
    fun _ _ _ _ hsame h => h.trans (of_sameBooks (.of_recordsOnly hsame))
  have hstart : Since sh () [] sh := of_sameBooks (.refl sh)
  have hinstall : ∀ ct, sh.contexts[c]? = some ct → Since sh () [] (sh.install c ct s) :=
    fun ct _ => of_sameBooks (.install sh c ct s)
  exact (Yields.replaceStore hkeeps hrecords c s (fun _ => hstart) hinstall).last

end ClosesNone

end Shell

/-! ### Straight courses -/

/-- A step without flags, nothing for a close. -/
def ClosingStep.plain? : ClosingStep → Option StorageStep
  | .storage (.close _) | .closeMedium _ => none
  | .storage step => some step.plain

theorem ClosingStep.plain?_eq_none_iff {step : ClosingStep} : step.plain? = none ↔ step.IsClose := by
  rcases step with step | m
  · cases step <;> simp [plain?, IsClose]
  · simp [plain?, IsClose]

theorem ClosingStep.eq_storage_of_plain? {step : ClosingStep} {plain : StorageStep}
    (h : step.plain? = some plain) : ∃ s, step = .storage s ∧ s.plain = plain := by
  rcases step with step | m
  · refine ⟨step, rfl, ?_⟩
    cases step <;> simp_all [plain?]
  · cases h

namespace Course

variable {answer answer' : Call → Course ClosingStep α} {steps steps' : List ClosingStep}

/-- The steps of a list, one after the other, with the same answers to all of them. -/
def ofSteps (answer : Call → Course ClosingStep α) (steps : List ClosingStep) :
    Course ClosingStep α :=
  steps.foldr (fun step rest => .step step (fun call _ => answer call) fun _ => rest) .done

/-- Closes that only the second course makes. -/
theorem Alike.closes {p : Shell α} {course : Course ClosingStep α} {closes : List ClosingStep}
    (hcloses : ∀ close ∈ closes, close.plain? = none)
    (h : Alike p course (ofSteps answer steps)) : Alike p course (ofSteps answer (closes ++ steps)) := by
  induction closes with
  | nil => exact h
  | cons close closes ih =>
    have hclose := ClosingStep.plain?_eq_none_iff.1 (hcloses close List.mem_cons_self)
    exact .closeSecond hclose fun _ _ => ih fun c hc => hcloses c (List.mem_cons_of_mem close hc)

/-- Lists that are the same without flags and closes give alike courses if the answers are alike. -/
theorem ofSteps_alike (hanswer : ∀ call p, Alike p (answer call) (answer' call))
    (h : steps.filterMap ClosingStep.plain? = steps'.filterMap ClosingStep.plain?) (p : Shell α) :
    Alike p (ofSteps answer steps) (ofSteps answer' steps') := by
  induction steps generalizing steps' p with
  | nil =>
    -- only closes are left in the other list
    have hcloses := List.filterMap_eq_nil_iff.1 h.symm
    have hdone : Alike p .done (ofSteps answer' []) := .done p
    exact List.append_nil steps' ▸ hdone.closes hcloses
  | cons step steps ih =>
    rcases hstep : step.plain? with - | plain
    · rw [List.filterMap_cons_none hstep] at h
      exact .closeFirst (ClosingStep.plain?_eq_none_iff.1 hstep) fun _ _ => ih h p
    · rw [List.filterMap_cons_some hstep] at h
      obtain ⟨closes, step', rest, rfl, hcloses, hstep', hrest⟩ := List.filterMap_eq_cons_iff.1 h.symm
      obtain ⟨s, rfl, hs⟩ := ClosingStep.eq_storage_of_plain? hstep
      obtain ⟨s', rfl, hs'⟩ := ClosingStep.eq_storage_of_plain? hstep'
      refine Alike.closes hcloses (.step (hs.trans hs'.symm) (fun call sh _ _ => ?_) fun sh _ _ => ?_)
      · exact hanswer call sh.plain
      · exact ih hrest.symm sh.plain

end Course

/-! ### Flags and closes -/

/-- Flags and closes make no difference to what is read, held, delivered and told to watchers, at no
station of a run; a store reports a level if it always does or was granted it, and closes its medium
when it is closed for the first time, unless it ignores this; and a replacement closes nothing. -/
theorem closing_leaves_data_alone (α : Type) :
    (∀ course course' : Course ClosingStep α, Course.Alike .empty course course' →
      Shell.SameView (course.run (ClosingStep.conduct α) .empty)
        (course'.run (ClosingStep.conduct α) .empty) ∧
      (∀ st ∈ course.stations (ClosingStep.conduct α) [] .empty,
        ∃ st' ∈ course'.stations (ClosingStep.conduct α) [] .empty,
          Shell.SameView st.shell st'.shell) ∧
      ∀ st' ∈ course'.stations (ClosingStep.conduct α) [] .empty,
        ∃ st ∈ course.stations (ClosingStep.conduct α) [] .empty,
          Shell.SameView st'.shell st.shell) ∧
    (∀ course : Course ClosingStep α,
      ∀ st ∈ course.stations (ClosingStep.conduct α) [] .empty,
        Ledger.Valid st.past → Shell.Settled st.past st.shell) ∧
    ∀ act : Shell.Act α, (∀ call sh, Shell.ClosesNone sh (act call sh)) →
      ∀ c s sh, Shell.ClosesNone sh (Shell.replaceStore act c s sh).2 := by
  refine ⟨?twoRuns, ?oneRun, ?replacement⟩
  case twoRuns =>
    intro course course' h
    have htwins : Twins (course.stations (ClosingStep.conduct α) [] .empty)
        (course'.stations (ClosingStep.conduct α) [] .empty) _ _ :=
          h.twins [] [] Shell.plain_empty Shell.plain_empty
    -- a course is alike in either direction, and each station has a twin in both
    have htwins' : Twins (course'.stations (ClosingStep.conduct α) [] .empty)
        (course.stations (ClosingStep.conduct α) [] .empty) _ _ :=
          h.symm.twins [] [] Shell.plain_empty Shell.plain_empty
    refine ⟨htwins.last.sameView, ?_, ?_⟩
    · intro st hst
      obtain ⟨st', hst', halike⟩ := htwins.all st hst
      exact ⟨st', hst', halike.sameView⟩
    · intro st' hst'
      obtain ⟨st, hst, halike⟩ := htwins'.all st' hst'
      exact ⟨st, hst, halike.sameView⟩
  case oneRun =>
    intro course st hst hv
    exact Shell.settled_of_books hv (Books.of_mem_stations course hst hv)
  case replacement =>
    intro act hact c s sh
    exact .replaceStore hact c s sh

/-- A memory, a store over it that reports everything as granted, and a listener that is told a text;
the listener closes the store. -/
def closedWhileTold : Course ClosingStep Unit :=
  .ofSteps (fun _ => .ofSteps (fun _ => .done) [.storage (.close 0)])
    [ .storage (.newMemory "m"),
      .storage (.newStore (.memory 0) ⟨false, true⟩),
      .storage (.subscribe ⟨.store 0, "k", .strictlyNecessary⟩),
      .storage (.write ⟨.store 0, "k", .strictlyNecessary⟩ "a"),
      .storage (.read ⟨.store 0, "k", .strictlyNecessary⟩) ]

/-- The same with a store that ignores closes, and that is only closed at the end. -/
def closedAtEnd : Course ClosingStep Unit :=
  .ofSteps (fun _ => .done)
    [ .storage (.newMemory "m"),
      .storage (.newStore (.memory 0) ⟨true, false⟩),
      .storage (.subscribe ⟨.store 0, "k", .strictlyNecessary⟩),
      .storage (.write ⟨.store 0, "k", .strictlyNecessary⟩ "a"),
      .storage (.read ⟨.store 0, "k", .strictlyNecessary⟩),
      .storage (.close 0) ]

theorem closing_leaves_data_alone_closedWhileTold :
    let sh := closedWhileTold.run (ClosingStep.conduct Unit) .empty
    let sh' := closedAtEnd.run (ClosingStep.conduct Unit) .empty
    Shell.SameView sh sh' ∧
      (∃ st ∈ closedWhileTold.stations (ClosingStep.conduct Unit) [] .empty,
        Ledger.closings st.past = [(some 0, .memory 0)] ∧ Shell.Settled st.past st.shell) ∧
      (sh.memories[0]?.map Memory.closed = some true ∧
        sh'.memories[0]?.map Memory.closed = some false) ∧
      Shell.ClosesNone sh (Shell.replaceStore Shell.quiet 0 0 sh).2 := by
  obtain ⟨htwoRuns, honeRun, hreplace⟩ := closing_leaves_data_alone Unit
  have halike : Course.Alike .empty closedWhileTold closedAtEnd := by
    refine Course.ofSteps_alike (fun _ p => ?_) ?_ _
    · exact .closeFirst trivial fun _ _ => .done p
    · rfl
  obtain ⟨st, hst, hpast⟩ :
      ∃ st ∈ closedWhileTold.stations (ClosingStep.conduct Unit) [] .empty,
        st.past =
          [ .storage (.read ⟨.store 0, "k", .strictlyNecessary⟩),
            .storage (.close 0),
            .storage (.write ⟨.store 0, "k", .strictlyNecessary⟩ "a"),
            .storage (.subscribe ⟨.store 0, "k", .strictlyNecessary⟩),
            .storage (.newStore (.memory 0) ⟨false, true⟩),
            .storage (.newMemory "m") ] := ⟨_, .head _, rfl⟩
  have hvalid : Ledger.Valid st.past := by
    rw [hpast]
    decide
  refine ⟨(htwoRuns _ _ halike).1, ⟨st, hst, ?_, honeRun _ st hst hvalid⟩, ⟨?_, ?_⟩,
    hreplace Shell.quiet (fun _ sh => .of_sameBooks (.refl sh)) 0 0 _⟩
  · rw [hpast]
    rfl
  · decide
  · decide

end AppShell
