/-
AppShell/Proofs/Boards/Holdings.lean

What registrations stand for.

A registration that was not released has an entry of its own in its panel.  It is
known by its number: a panel gives out no number twice, and a release takes away
the entries of one number alone.  So `Rooted` needs nothing of a panel but its
numbers (`Shell.numbersOf`), and is kept by whatever leaves them alone.  It is also
known which registrations were released: those of which this was noted.
-/
import AppShell.Proofs.Boards.Recording

namespace AppShell

variable {α : Type} {p : PanelId} {r : RegistrationId} {sh sh' : Shell α} {past past' : List BoardMove}

/-! ### Numbers of entries -/

/-- The number that a panel has issued last, and the numbers of its entries. -/
structure EntryNumbers where
  issued : Nat
  entries : List Nat

/-- The numbers of a panel. -/
def Panel.numbers (pa : Panel) : EntryNumbers :=
  ⟨pa.issued, pa.stack.map Prod.fst⟩

/-- An entry is registered when its number is held. -/
theorem Panel.registered_iff {pa : Panel} {number : Nat} :
    pa.registered number = true ↔ number ∈ pa.numbers.entries := by
  simp [Panel.registered, Panel.numbers]

/-- A registration holds the next number, above the others. -/
theorem Panel.numbers_register (pa : Panel) (content : Option String) :
    (pa.register content).2.numbers =
      ⟨pa.numbers.issued + 1, pa.numbers.entries ++ [pa.numbers.issued + 1]⟩ := by
  simp only [Panel.numbers, Panel.register, List.map_append, List.map_cons, List.map_nil]

/-- A release gives one number back. -/
theorem Panel.numbers_release (pa : Panel) (number : Nat) :
    (pa.release number).numbers =
      ⟨pa.numbers.issued, pa.numbers.entries.filter fun n => n != number⟩ := by
  simp only [Panel.numbers, Panel.release, List.filter_map]
  rfl

/-- A new content is held under the same number. -/
theorem Panel.numbers_setEntry {pa changed : Panel} {owner : Option Nat} {content : Option String}
    (h : pa.setEntry owner content = some changed) : changed.numbers = pa.numbers := by
  cases owner with
  | none =>
    obtain rfl := Option.some.inj h
    rfl
  | some number =>
    rw [setEntry] at h
    split at h
    · obtain rfl := Option.some.inj h
      simp only [numbers, List.map_map]
      congr 1
      refine List.map_congr_left fun e _ => ?_
      simp only [Function.comp_apply]
      split <;> rfl
    · cases h

/-- The entry that shows is registered. -/
theorem Panel.registered_visibleOwner {pa : Panel} {number : Nat}
    (h : pa.visibleOwner = some number) : pa.registered number = true := by
  obtain ⟨e, he, rfl⟩ := Option.map_eq_some_iff.1 h
  exact registered_iff.2 (List.mem_map_of_mem (List.mem_of_getLast? he))

namespace Shell

/-- The numbers of a panel, if it is there. -/
def numbersOf (sh : Shell α) (p : PanelId) : Option EntryNumbers :=
  sh.panels[p]?.map Panel.numbers

theorem numbersOf_modifyPanel (sh : Shell α) (p : PanelId) (f : Panel → Panel) (p' : PanelId) :
    (sh.modifyPanel p f).numbersOf p' =
      if p = p' then sh.panels[p']?.map fun pa => (f pa).numbers else sh.numbersOf p' := by
  rw [numbersOf, modifyPanel, Array.getElem?_modify]
  split
  · rw [Option.map_map]
    rfl
  · rfl

/-- A change of a panel that leaves its numbers alone. -/
theorem numbersOf_modifyPanel_of_same {f : Panel → Panel}
    (hf : ∀ pa, sh.panels[p]? = some pa → (f pa).numbers = pa.numbers) (p' : PanelId) :
    (sh.modifyPanel p f).numbersOf p' = sh.numbersOf p' := by
  rw [numbersOf_modifyPanel]
  split
  · next hp =>
    subst hp
    rcases hpa : sh.panels[p]? with - | pa
    · rw [numbersOf, hpa]
      rfl
    · rw [numbersOf, hpa]
      exact congrArg some (hf pa hpa)
  · rfl

/-- A registration holds a number in its own panel only. -/
theorem numbersOf_register (sh : Shell α) (p : PanelId) (content : Option String) (p' : PanelId) :
    (sh.modifyPanel p fun pa => (pa.register content).2).numbersOf p' =
      if p = p' then (sh.numbersOf p').map fun ns => ⟨ns.issued + 1, ns.entries ++ [ns.issued + 1]⟩
      else sh.numbersOf p' := by
  rw [numbersOf_modifyPanel, funext fun pa => Panel.numbers_register pa content]
  split
  · rw [numbersOf, Option.map_map]
    rfl
  · rfl

/-- A release takes the entries of one number away. -/
theorem exists_numbersOf_release {number : Nat} {p' : PanelId} {ns' : EntryNumbers}
    (h : (sh.modifyPanel p fun pa => pa.release number).numbersOf p' = some ns') :
    ∃ ns, sh.numbersOf p' = some ns ∧ ns.issued = ns'.issued ∧
      ∀ n ∈ ns.entries, (p = p' → number ≠ n) → n ∈ ns'.entries := by
  rw [numbersOf_modifyPanel] at h
  split at h
  · next hp =>
    obtain ⟨pa, hpa, rfl⟩ := Option.map_eq_some_iff.1 h
    refine ⟨pa.numbers, by rw [numbersOf, hpa]; rfl, ?_⟩
    rw [Panel.numbers_release]
    refine ⟨rfl, fun n hn hother => List.mem_filter.2 ⟨hn, ?_⟩⟩
    exact bne_iff_ne.2 (hother hp).symm
  · exact ⟨ns', h, rfl, fun _ hn _ => hn⟩

/-- Handles and registrations are as they were, and so are the numbers of panels. -/
structure SameHoldings (sh sh' : Shell α) : Prop where
  handles : sh'.handles = sh.handles
  registrations : sh'.registrations = sh.registrations
  numbers : ∀ p, sh'.numbersOf p = sh.numbersOf p

/-- A subscriber holds no entry. -/
theorem sameHoldings_subscribe (b : Board) (sh : Shell α) : SameHoldings sh (sh.subscribe b) := by
  refine ⟨?handles, ?registrations, fun p => ?numbers⟩
  case handles | registrations =>
    cases b with
    | queue q =>
      rcases e : sh.queues[q]? with - | qu <;> simp only [subscribe, listenQueue, e] <;> rfl
    | panel p =>
      rcases e : sh.panels[p]? with - | pa <;> simp only [subscribe, listenPanel, e] <;> rfl
  case numbers =>
    rw [numbersOf, panels_subscribe]
    split
    · rw [Option.map_map]
      rfl
    · rfl

/-- Who leaves gives no entry back. -/
theorem sameHoldings_unsubscribe (sh : Shell α) (m : SubscriptionId) :
    SameHoldings sh (sh.unsubscribe m) := by
  rcases sh.unsubscribe_cases m with h | ⟨table, number, -, h⟩
  · rw [h]
    exact ⟨rfl, rfl, fun _ => rfl⟩
  · rw [h]
    refine ⟨by cases table <;> rfl, by cases table <;> rfl, fun p => ?_⟩
    show ((sh.detach table number).panels[p]?).map Panel.numbers = _
    rw [panels_detach]
    split
    · rw [Option.map_map]
      rfl
    · rfl

end Shell

/-! ### Registrations and their entries -/

/-- Registrations that were not released have entries of their own in the panels that are there, and
those that were released are the ones of which this was noted. -/
structure Rooted (past : List BoardMove) (sh : Shell α) : Prop where
  entry : ∀ {r : RegistrationId} {reg ns}, sh.registrations[r]? = some reg →
    sh.numbersOf reg.panel = some ns →
    reg.number ≤ ns.issued ∧ (reg.released = false → reg.number ∈ ns.entries)
  distinct : ∀ {r r' : RegistrationId} {reg reg' ns}, sh.registrations[r]? = some reg →
    sh.registrations[r']? = some reg' → sh.numbersOf reg.panel = some ns →
    reg.panel = reg'.panel → reg.number = reg'.number → r = r'
  released : ∀ {r : RegistrationId} {reg}, sh.registrations[r]? = some reg →
    (reg.released = true ↔ .released r ∈ past)
  issued : ∀ {r : RegistrationId}, .released r ∈ past → r < sh.registrations.size

namespace Rooted

theorem of_same (h : Rooted past sh) (hregistrations : sh'.registrations = sh.registrations)
    (hnumbers : ∀ p, sh'.numbersOf p = sh.numbersOf p)
    (hpast : ∀ r, .released r ∈ past' ↔ .released r ∈ past) : Rooted past' sh' where
  entry hr hns := h.entry (hregistrations ▸ hr) (hnumbers _ ▸ hns)
  distinct hr hr' hns := h.distinct (hregistrations ▸ hr) (hregistrations ▸ hr') (hnumbers _ ▸ hns)
  released hr := (h.released (hregistrations ▸ hr)).trans (hpast _).symm
  issued hr := hregistrations ▸ h.issued ((hpast _).1 hr)

/-- Changes of boards are of no interest to registrations. -/
theorem changed (h : Rooted past sh) (b : Board) (sh' : Shell α) :
    Rooted (sh'.changeOf b ++ past) sh := by
  refine h.of_same rfl (fun _ => rfl) fun r => ?_
  rw [List.mem_append, Shell.changeOf]
  split <;> simp

/-- A registration that was released before may be released again. -/
theorem again (h : Rooted past sh) {reg : Registration} (hr : sh.registrations[r]? = some reg)
    (hreleased : reg.released = true) : Rooted (.released r :: past) sh := by
  refine h.of_same rfl (fun _ => rfl) fun r' => ?_
  rw [List.mem_cons, BoardMove.released.injEq]
  refine or_iff_right_of_imp ?_
  rintro rfl
  exact (h.released hr).1 hreleased

/-- A new entry has a number of its own, which its registration is handed out with. -/
theorem register (h : Rooted past sh) {number : Nat}
    (hnumber : ∀ ns, sh.numbersOf p = some ns → number = ns.issued + 1)
    (hregistrations : sh'.registrations = sh.registrations.push ⟨p, number, false⟩)
    (hnumbers : ∀ p', sh'.numbersOf p' =
      if p = p' then (sh.numbersOf p').map fun ns => ⟨ns.issued + 1, ns.entries ++ [ns.issued + 1]⟩
      else sh.numbersOf p') : Rooted past sh' := by
  have hpushed : ∀ {r : RegistrationId} {reg}, sh'.registrations[r]? = some reg →
      sh.registrations[r]? = some reg ∨ r = sh.registrations.size ∧ reg = ⟨p, number, false⟩ := by
    intro r reg hr
    rw [hregistrations, Array.getElem?_push] at hr
    split at hr
    · next he => exact .inr ⟨he, (Option.some.inj hr).symm⟩
    · exact .inl hr
  -- the numbers of before are still there
  have hgrown : ∀ {p' ns'}, sh'.numbersOf p' = some ns' → ∃ ns, sh.numbersOf p' = some ns ∧
      ns.issued ≤ ns'.issued ∧ (∀ n ∈ ns.entries, n ∈ ns'.entries) ∧
      (p = p' → ns'.issued = ns.issued + 1 ∧ ns.issued + 1 ∈ ns'.entries) := by
    intro p' ns' hns
    rw [hnumbers] at hns
    split at hns
    · obtain ⟨ns, hold, rfl⟩ := Option.map_eq_some_iff.1 hns
      exact ⟨ns, hold, Nat.le_succ _, fun n hn => List.mem_append_left _ hn,
        fun _ => ⟨rfl, List.mem_append_right _ (List.mem_singleton_self _)⟩⟩
    · next hp => exact ⟨ns', hns, Nat.le_refl _, fun _ hn => hn, fun he => absurd he hp⟩
  -- no registration of before has the number of the new one
  have hnew : ∀ {r : RegistrationId} {reg ns'}, sh.registrations[r]? = some reg →
      reg.panel = p → sh'.numbersOf p = some ns' → reg.number ≠ number := by
    rintro r reg ns' hr rfl hns he
    obtain ⟨ns, hns, -⟩ := hgrown hns
    have hle := (h.entry hr hns).1
    rw [he, hnumber ns hns] at hle
    exact Nat.not_succ_le_self _ hle
  refine ⟨fun hr hns => ?entry, fun hr hr' hns hp hn => ?distinct, fun hr => ?released,
    fun hr => ?issued⟩
  case entry =>
    obtain ⟨ns, hns, hissued, hentries, hmine⟩ := hgrown hns
    rcases hpushed hr with hr | ⟨-, rfl⟩
    · obtain ⟨hle, hmem⟩ := h.entry hr hns
      exact ⟨Nat.le_trans hle hissued, fun hreleased => hentries _ (hmem hreleased)⟩
    · obtain ⟨hlast, hmem⟩ := hmine rfl
      rw [hnumber ns hns, hlast]
      exact ⟨Nat.le_refl _, fun _ => hmem⟩
  case distinct =>
    rcases hpushed hr with hr | ⟨rfl, rfl⟩ <;> rcases hpushed hr' with hr' | ⟨rfl, rfl⟩
    · obtain ⟨ns, hns, -⟩ := hgrown hns
      exact h.distinct hr hr' hns hp hn
    · exact absurd hn (hnew hr hp (hp ▸ hns))
    · exact absurd hn.symm (hnew hr' hp.symm hns)
    · rfl
  case released =>
    rcases hpushed hr with hr | ⟨rfl, rfl⟩
    · exact h.released hr
    · refine iff_of_false nofun fun hmem => ?_
      exact Nat.lt_irrefl _ (h.issued hmem)
  case issued =>
    rw [hregistrations, Array.size_push]
    exact Nat.lt_succ_of_lt (h.issued hr)

/-- A registration is released, and no entry but its own is taken away. -/
theorem release (h : Rooted past sh) {reg : Registration} (hr : sh.registrations[r]? = some reg)
    (hregistrations : sh'.registrations = (sh.markReleased r).registrations)
    (hnumbers : ∀ p' ns', sh'.numbersOf p' = some ns' → ∃ ns, sh.numbersOf p' = some ns ∧
      ns.issued = ns'.issued ∧
      ∀ n ∈ ns.entries, (reg.panel = p' → reg.number ≠ n) → n ∈ ns'.entries) :
    Rooted (.released r :: past) sh' := by
  have hmarked : ∀ {r' : RegistrationId} {reg'}, sh'.registrations[r']? = some reg' →
      ∃ old, sh.registrations[r']? = some old ∧ old.panel = reg'.panel ∧
        old.number = reg'.number ∧ reg'.released = (old.released || decide (r = r')) := by
    intro r' reg' hr'
    rw [hregistrations, Shell.markReleased, Array.getElem?_modify] at hr'
    split at hr'
    · next he =>
      obtain ⟨old, hold, rfl⟩ := Option.map_eq_some_iff.1 hr'
      exact ⟨old, hold, rfl, rfl, by simp [he]⟩
    · next he => exact ⟨reg', hr', rfl, rfl, by simp [he]⟩
  refine ⟨fun hr' hns => ?entry, fun hr' hr'' hns hp hn => ?distinct, fun hr' => ?released,
    fun hr' => ?issued⟩
  case entry =>
    obtain ⟨old, hold, hpanel, hnumber, hreleased⟩ := hmarked hr'
    obtain ⟨ns, hns, hissued, hentries⟩ := hnumbers _ _ hns
    rw [← hpanel] at hns
    obtain ⟨hle, hmem⟩ := h.entry hold hns
    rw [← hnumber, ← hissued]
    refine ⟨hle, fun hlive => ?_⟩
    rw [hreleased, Bool.or_eq_false_iff, decide_eq_false_iff_not] at hlive
    -- the entry of another registration has another number
    refine hentries _ (hmem hlive.1) fun hp he => hlive.2 ?_
    rw [← hpanel] at hp
    exact h.distinct hr hold (hp ▸ hns) hp he
  case distinct =>
    obtain ⟨old, hold, hpanel, hnumber, -⟩ := hmarked hr'
    obtain ⟨old', hold', hpanel', hnumber', -⟩ := hmarked hr''
    obtain ⟨ns, hns, -⟩ := hnumbers _ _ hns
    rw [← hpanel] at hns
    exact h.distinct hold hold' hns (by rw [hpanel, hpanel', hp]) (by rw [hnumber, hnumber', hn])
  case released =>
    obtain ⟨old, hold, -, -, hreleased⟩ := hmarked hr'
    rw [hreleased, Bool.or_eq_true, h.released hold, decide_eq_true_iff, List.mem_cons,
      BoardMove.released.injEq]
    exact or_comm.trans (or_congr_left eq_comm)
  case issued =>
    have hsize : sh'.registrations.size = sh.registrations.size := by
      rw [hregistrations]
      exact Array.size_modify
    rw [hsize]
    rcases List.mem_cons.1 hr' with he | hmem
    · obtain rfl := BoardMove.released.inj he
      exact (Array.getElem?_eq_some_iff.1 hr).1
    · exact h.issued hmem

end Rooted

end AppShell
