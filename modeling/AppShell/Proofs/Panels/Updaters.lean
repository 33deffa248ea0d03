/-
AppShell/Proofs/Panels/Updaters.lean

Updates of a panel that take steps on it.

An update of the visible entry is asked for the new content, and may register,
release and set until it answers.  The content lands on the entry that was
visible when the update began, which is remembered by its number: another one may
be visible by then, and the entry may be gone.

A history has no change for a content that lands on a hidden entry.  But the
panel is the same as if the entry had held that content from its beginning on,
and nothing else (`PanelHistory.assign`).

The main statement is `yields_moves`: a panel stands as some history says at every
station of every run, whatever updates do.
-/
import AppShell.Proofs.Panels.Ownership

namespace AppShell

variable {α : Type} {p : PanelId} {past : PanelHistory} {sh : Shell α}

/-! ### Contents that are assigned -/

namespace PanelHistory

/-- A history in which an entry has held a content from its beginning on. -/
def assign (e : Option Nat) (v : Option String) : PanelHistory → PanelHistory
  | [] => if e = none then [.set (.value v)] else []
  | .register content :: past =>
    .register (if e = some (registrations past) then v else content) :: assign e v past
  | .release n :: past => .release n :: assign e v past
  | .set revision :: past =>
    .set (if owner past = e then .value v else revision) :: assign e v past
  | .setOpened revision :: past => .setOpened revision :: assign e v past

variable (e : Option Nat) (v : Option String)

theorem registrations_assign (past : PanelHistory) :
    (assign e v past).registrations = past.registrations := by
  induction past with
  | nil => rw [assign]; split <;> rfl
  | cons m past ih =>
    cases m with
    | register content => exact congrArg (· + 1) ih
    | release n | set revision | setOpened revision => exact ih

theorem live_assign (past : PanelHistory) : (assign e v past).live = past.live := by
  induction past with
  | nil => rw [assign]; split <;> rfl
  | cons m past ih =>
    cases m with
    | register content =>
      show live (assign e v past) ++ [registrations (assign e v past)] = _
      rw [ih, registrations_assign]
      rfl
    | release n => exact congrArg (List.filter (· != n)) ih
    | set revision | setOpened revision => exact ih

theorem owner_assign (past : PanelHistory) : (assign e v past).owner = past.owner :=
  congrArg List.getLast? (live_assign e v past)

theorem opened_assign (past : PanelHistory) : (assign e v past).opened = past.opened := by
  have hopenings : (assign e v past).openings = past.openings := by
    induction past with
    | nil => rw [assign]; split <;> rfl
    | cons m past ih =>
      cases m with
      | setOpened revision => exact congrArg (· ++ [revision]) ih
      | register content | release n | set revision => exact ih
  exact congrArg (Revision.applyAll false) hopenings

variable {e}

theorem content_assign_self (he : ∀ n, e = some n → n < past.registrations) :
    (assign e v past).content e = v := by
  induction past with
  | nil =>
    rcases e with - | n
    · rfl
    · exact absurd (he n rfl) (Nat.not_lt_zero n)
  | cons m past ih =>
    cases m with
    | register content =>
      rw [assign, content_register, registrations_assign]
      by_cases hlast : e = some (registrations past)
      · rw [if_pos hlast, if_pos hlast]
      · rw [if_neg hlast]
        refine ih fun n hn => Nat.lt_of_le_of_ne (Nat.le_of_lt_succ (he n hn)) ?_
        rintro rfl
        exact hlast hn
    | set revision =>
      rw [assign, content_set, owner_assign]
      by_cases ho : owner past = e
      · rw [if_pos ho, if_pos ho]
        rfl
      · rw [if_neg ho]
        exact ih he
    | release n | setOpened revision => exact ih he

theorem content_assign_of_ne {e' : Option Nat} (hne : e' ≠ e) :
    (assign e v past).content e' = past.content e' := by
  induction past with
  | nil =>
    rcases e with - | n
    · have ho : owner [] ≠ e' := Ne.symm hne
      rw [assign, if_pos rfl, content_set, if_neg ho]
    · rfl
  | cons m past ih =>
    cases m with
    | register content =>
      rw [assign, content_register, content_register, registrations_assign, ih]
      by_cases hlast : e' = some (registrations past)
      · rw [if_pos hlast, if_pos hlast, if_neg fun he => hne (hlast.trans he.symm)]
      · rw [if_neg hlast, if_neg hlast]
    | set revision =>
      rw [assign, content_set, content_set, owner_assign, ih]
      by_cases ho : owner past = e'
      · rw [if_pos ho, if_pos ho, if_neg fun he => hne (ho.symm.trans he)]
      · rw [if_neg ho, if_neg ho]
    | release n | setOpened revision => exact ih

/-- A content that is set on the base, or on an entry that is live, is assigned to it. -/
theorem panel_assign (he : ∀ n, e = some n → n ∈ past.live) :
    past.panel.setEntry (e.map (· + 1)) v = some (assign e v past).panel := by
  have hself : (assign e v past).content e = v :=
    content_assign_self v fun n hn => lt_of_mem_live (he n hn)
  rcases e with - | n
  · -- the base is assigned: no entry shows anything else
    have hstack : past.live.map (fun n => (n + 1, (assign none v past).content (some n)))
        = past.live.map fun n => (n + 1, past.content (some n)) := by
      refine List.map_congr_left fun n _ => ?_
      rw [content_assign_of_ne v (Option.some_ne_none n)]
    simp only [Option.map_none, Panel.setEntry, panel, live_assign, registrations_assign,
      opened_assign, hself, hstack]
  · -- the entry of one registration is assigned, and neither the others nor the base are
    have hregistered : past.panel.registered (n + 1) = true := by
      rw [registered_panel]
      exact decide_eq_true (he n rfl)
    have hstack : (past.live.map fun n => (n + 1, past.content (some n))).map
        (fun entry => if entry.1 = n + 1 then (entry.1, v) else entry)
          = past.live.map fun a => (a + 1, (assign (some n) v past).content (some a)) := by
      rw [List.map_map]
      refine List.map_congr_left fun a _ => ?_
      by_cases ha : a = n
      · subst ha
        simp [hself]
      · have hne : some a ≠ some n := fun h => ha (Option.some.inj h)
        simp [content_assign_of_ne v hne, ha]
    have hbase : (assign (some n) v past).content none = past.content none :=
      content_assign_of_ne v (Option.some_ne_none n).symm
    simp only [Option.map_some, Panel.setEntry, hregistered, if_true]
    simp only [panel, live_assign, registrations_assign, opened_assign, hbase, ← hstack]

end PanelHistory

/-! ### Moves -/

/-- A step on a panel, or an update of it that takes moves itself. -/
inductive PanelMove (α : Type) (p : PanelId) where
  | step (s : PanelStep α p)
  | set (u : Updater (Option String) α)
  | setOpened (u : Updater Bool α)

namespace PanelMove

/-- What a move does to a shell. -/
def perform (act : Shell.Act α) (sh : Shell α) : PanelMove α p → Shell α
  | .step s => s.perform act sh
  | .set u => Shell.setContent act p (u.update act) sh
  | .setOpened u => Shell.setOpened act p (u.update act) sh

/-- The panel that an update of the visible entry leads to, none if the entry is gone. -/
def changed? (p : PanelId) (u : Updater (Option String) α) (act : Shell.Act α) (sh : Shell α) :
    Option Panel :=
  sh.panels[p]?.bind fun pa =>
    let (content, after) := u.update act pa.visible sh
    after.panels[p]?.bind fun now => now.setEntry pa.visibleOwner content

/-- The stations of a move: those of an update are followed by the one right after the change, where
the panel stands as if the content had been there before, and those of the listeners. -/
def stations (act : Shell.Act α) (tr : Answers PanelMark α) (past : PanelHistory) (sh : Shell α) :
    PanelMove α p → Stations PanelMark α
  | .step s => s.stations act tr past sh
  | .set u =>
    let during := tr (.turn u.turn) past sh
    let after := act (.turn u.turn) sh
    match changed? p u act sh with
    | none => during
    | some changed =>
      let content := u.value (sh.panelContent p) after
      let right := after.modifyPanel p fun _ => changed
      Shell.changeStations act tr (right.panelTold p)
        (PanelHistory.assign past.owner content (during.past past)) right ++ during
  | .setOpened u =>
    let during := tr (.turn u.turn) past sh
    let after := act (.turn u.turn) sh
    let opened := u.value (((sh.panels[p]?).map Panel.opened).getD false) after
    let right := after.modifyPanel p fun pa => pa.setOpened opened
    Shell.changeStations act tr (right.panelTold p)
      (.setOpened (.value opened) :: during.past past) right ++ during

/-- How the moves on a panel are performed and noted. -/
def conduct (α : Type) (p : PanelId) : Conduct (PanelMove α p) PanelMark α where
  perform m act sh := m.perform act sh
  stations m act tr past sh := m.stations act tr past sh

end PanelMove

namespace PanelFollows

variable {i : PanelFrame α} {act : Shell.Act α} {tr : Answers PanelMark α}

/-- A change of the panel that leaves the entries as they are. -/
theorem modify (h : PanelFollows p i past sh) {past' : PanelHistory} {pa : Panel} {f : Panel → Panel}
    (hpa : sh.panels[p]? = some pa) (hf : (f pa).slot = past'.panel)
    (hregistrations : past'.registrations = past.registrations) (hlive : past'.live = past.live) :
    PanelFollows p i past' (sh.modifyPanel p f) :=
  ⟨⟨h.names, h.held, h.owners⟩, h.toStands.modify hpa hf hregistrations hlive, h.released, h.alive,
    h.unreferenced⟩

theorem yields_told (hact : Keeps (PanelFollows p) act tr) (before : PanelHistory)
    (h : PanelFollows p i past sh) :
    Yields (PanelFollows p) i before (Shell.changeStations act tr (sh.panelTold p) past sh)
      (Shell.panelChanged act p sh) := by
  rw [Shell.panelChanged_eq]
  exact .change hact (fun _ _ sh e h => h.of_samePanel (.note sh e)) _ before h

/-- What is set on an entry of a panel changes the panel if the entry is there. -/
theorem setEntry (h : PanelFollows p i past sh) {pa : Panel} (hpa : sh.panels[p]? = some pa)
    (e : Option Nat) (v : Option String) :
    (∃ changed, pa.setEntry (e.map (· + 1)) v = some changed ∧
      PanelFollows p i (past.assign e v) (sh.modifyPanel p fun _ => changed)) ∨
    ∃ n, e = some n ∧ n ∉ past.live ∧ pa.setEntry (e.map (· + 1)) v = none := by
  have hslot : pa.slot = past.panel := by
    obtain ⟨pa', hpa', hslot⟩ := h.exists_panel
    rwa [Option.some.inj (hpa.symm.trans hpa')]
  by_cases he : ∀ n, e = some n → n ∈ past.live
  · have hset := PanelHistory.panel_assign v he
    rw [← hslot] at hset
    obtain ⟨changed, hchanged, hstands⟩ := Panel.slot_setEntry hset
    exact .inl ⟨changed, hchanged, h.modify hpa hstands (PanelHistory.registrations_assign e v past)
      (PanelHistory.live_assign e v past)⟩
  · -- an entry that was released is not found any more
    obtain ⟨n, he⟩ := Classical.not_forall.1 he
    obtain ⟨rfl, hn⟩ := Classical.not_imp.1 he
    have hregistered : pa.registered (n + 1) = false := by
      rw [← decide_eq_false hn, ← PanelHistory.registered_panel, ← hslot]
      rfl
    refine .inr ⟨n, rfl, hn, ?_⟩
    simp only [Option.map_some, Panel.setEntry, hregistered, Bool.false_eq_true, if_false]

theorem visibleOwner (h : PanelFollows p i past sh) {pa : Panel} (hpa : sh.panels[p]? = some pa) :
    pa.visibleOwner = past.owner.map (· + 1) := by
  obtain ⟨pa', hpa', hslot⟩ := h.exists_panel
  obtain rfl : pa = pa' := Option.some.inj (hpa.symm.trans hpa')
  rw [← PanelHistory.visibleOwner_panel, ← hslot]
  rfl

/-- An update of the visible entry, which takes moves before the entry is changed. -/
theorem yields_update (hact : Keeps (PanelFollows p) act tr) (u : Updater (Option String) α)
    (h : PanelFollows p i past sh) :
    Yields (PanelFollows p) i past (PanelMove.stations act tr past sh (.set u : PanelMove α p))
      (PanelMove.perform act sh (.set u : PanelMove α p)) := by
  obtain ⟨pa, hpa, -⟩ := h.exists_panel
  have hduring := hact (.turn u.turn) i past sh h
  obtain ⟨now, hnow, -⟩ := hduring.last.exists_panel
  have hcontent : sh.panelContent p = pa.visible := by
    rw [Shell.panelContent, hpa]
    rfl
  have howner := h.visibleOwner hpa
  rcases hduring.last.setEntry hnow past.owner (u.value pa.visible (act (.turn u.turn) sh)) with
    ⟨changed, hchanged, hright⟩ | ⟨n, -, -, hnone⟩
  · simp only [PanelMove.stations, PanelMove.perform, PanelMove.changed?, Shell.setContent,
      Updater.update, hpa, hnow, Option.bind_some, howner, hcontent, hchanged]
    exact hduring.trans (hright.yields_told hact _)
  · simp only [PanelMove.stations, PanelMove.perform, PanelMove.changed?, Shell.setContent,
      Updater.update, hpa, hnow, Option.bind_some, howner, hnone]
    exact hduring

/-- An update of the flag, which takes moves before the flag is changed. -/
theorem yields_updateOpened (hact : Keeps (PanelFollows p) act tr) (u : Updater Bool α)
    (h : PanelFollows p i past sh) :
    Yields (PanelFollows p) i past (PanelMove.stations act tr past sh (.setOpened u : PanelMove α p))
      (PanelMove.perform act sh (.setOpened u : PanelMove α p)) := by
  obtain ⟨pa, hpa, -⟩ := h.exists_panel
  have hduring := hact (.turn u.turn) i past sh h
  obtain ⟨now, hnow, hslot⟩ := hduring.last.exists_panel
  simp only [PanelMove.stations, PanelMove.perform, Shell.setOpened, Updater.update, hpa,
    Option.map_some, Option.getD_some]
  refine hduring.trans (yields_told hact _ (hduring.last.modify hnow ?_ rfl rfl))
  rw [PanelHistory.panel_setOpened, ← hslot]
  rfl

end PanelFollows

/-- What every move on a panel keeps. -/
theorem yields_move (m : PanelMove α p) (act : Shell.Act α) (tr : Answers PanelMark α)
    (hact : Keeps (PanelFollows p) act tr) (i : PanelFrame α) (past : PanelHistory) (sh : Shell α)
    (h : PanelFollows p i past sh) :
    Yields (PanelFollows p) i past (m.stations act tr past sh) (m.perform act sh) := by
  cases m with
  | step s => exact yields_step s act tr hact i past sh h
  | set u => exact h.yields_update hact u
  | setOpened u => exact h.yields_updateOpened hact u

/-- Every station of a run of moves stands as some history says. -/
theorem yields_moves (course : Course (PanelMove α p) α) {i : PanelFrame α}
    (h : PanelFollows p i past sh) :
    Yields (PanelFollows p) i past (course.stations (PanelMove.conduct α p) past sh)
      (course.run (PanelMove.conduct α p) sh) :=
  course.yields yields_move h

end AppShell
