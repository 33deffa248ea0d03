/-
AppShell/Proofs/Panels/Ownership.lean

Who owns what a panel shows.

`Stands pending past p sh` says that the panel of a shell is that of the history
and that each registration knows whether its entry is live.  While listeners are
told of a registration nobody has it in hand yet; such an entry is pending, and
stays live whatever the listeners do.  Every step keeps this, wherever in a run
it is taken (`yields_step`), so it holds at every station (`yields_run`).

The main statement is `panel_at_station`: the latest live registration owns what
is shown, and each entry, hidden or not, holds its initial content with the
revisions that were made while it was visible.
-/
import AppShell.Proofs.Panels.Steps

namespace AppShell

variable {α : Type} {p : PanelId} {past : PanelHistory} {pending : List Nat} {sh sh' : Shell α}

/-- The panel of a shell is that of a history, and its registrations know what became of their
entries; a pending entry is live and has no registration yet. -/
structure Stands (pending : List Nat) (past : PanelHistory) (p : PanelId) (sh : Shell α) :
    Prop where
  panel : sh.panels[p]?.map Panel.slot = some past.panel
  registration : ∀ {r : RegistrationId} {reg : Registration}, sh.registrations[r]? = some reg →
    ∃ n, n < past.registrations ∧ reg = ⟨p, n + 1, decide (n ∉ past.live)⟩
  distinct : ∀ {r r' : RegistrationId} {reg reg' : Registration}, sh.registrations[r]? = some reg →
    sh.registrations[r']? = some reg' → reg.number = reg'.number → r = r'
  pending_nodup : pending.Nodup
  pending_live : ∀ n ∈ pending, n ∈ past.live
  pending_new : ∀ n ∈ pending, ∀ {r : RegistrationId} {reg : Registration},
    sh.registrations[r]? = some reg → reg.number ≠ n + 1

namespace Stands

/-- The panel of the history is there, and it stands as the history says. -/
theorem exists_panel (h : Stands pending past p sh) :
    ∃ pa, sh.panels[p]? = some pa ∧ pa.slot = past.panel :=
  Option.map_eq_some_iff.1 h.panel

/-- A registration that was not released has a live entry. -/
theorem exists_live (h : Stands pending past p sh) {r : RegistrationId} {reg : Registration}
    (hr : sh.registrations[r]? = some reg) (hreleased : reg.released = false) :
    ∃ n, n ∈ past.live ∧ reg = ⟨p, n + 1, false⟩ := by
  obtain ⟨n, -, rfl⟩ := h.registration hr
  exact ⟨n, of_decide_eq_true (by simpa using hreleased), congrArg _ hreleased⟩

/-- What the history says goes by the panel's entries and the registrations alone. -/
theorem of_eq (h : Stands pending past p sh)
    (hslot : sh'.panels[p]?.map Panel.slot = sh.panels[p]?.map Panel.slot)
    (hregistrations : sh'.registrations = sh.registrations) : Stands pending past p sh' where
  panel := hslot.trans h.panel
  registration hr := h.registration (hregistrations ▸ hr)
  distinct hr hr' := h.distinct (hregistrations ▸ hr) (hregistrations ▸ hr')
  pending_nodup := h.pending_nodup
  pending_live := h.pending_live
  pending_new n hn _ _ hr := h.pending_new n hn (hregistrations ▸ hr)

/-- The panel of a shell once it was changed. -/
theorem panel_modify {pa : Panel} (hpa : sh.panels[p]? = some pa) (f : Panel → Panel) :
    (sh.modifyPanel p f).panels[p]?.map Panel.slot = some (f pa).slot := by
  rw [Shell.modifyPanel, Array.getElem?_modify, if_pos rfl, hpa]
  rfl

/-- A change of the panel that leaves the entries as they are. -/
theorem modify (h : Stands pending past p sh) {past' : PanelHistory} {pa : Panel}
    {f : Panel → Panel} (hpa : sh.panels[p]? = some pa) (hf : (f pa).slot = past'.panel)
    (hregistrations : past'.registrations = past.registrations) (hlive : past'.live = past.live) :
    Stands pending past' p (sh.modifyPanel p f) where
  panel := by rw [panel_modify hpa, hf]
  registration hr := by
    rw [hregistrations, hlive]
    exact h.registration hr
  distinct := h.distinct
  pending_nodup := h.pending_nodup
  pending_live := by
    rw [hlive]
    exact h.pending_live
  pending_new := h.pending_new

/-- An entry that is registered is pending. -/
theorem register (h : Stands pending past p sh) (content : Option String) :
    Stands (past.registrations :: pending) (.register content :: past) p
      (sh.modifyPanel p fun pa => (pa.register content).2) := by
  obtain ⟨pa, hpa, hslot⟩ := h.exists_panel
  -- the new entry is live from now on, and was not live before
  have hnew : past.registrations ∉ pending := fun hn =>
    Nat.lt_irrefl _ (PanelHistory.lt_of_mem_live (h.pending_live _ hn))
  refine ⟨?panel, fun hr => ?registration, h.distinct, List.nodup_cons.2 ⟨hnew, h.pending_nodup⟩,
    fun n hn => ?live, fun n hn r reg hr => ?new⟩
  case panel =>
    rw [panel_modify hpa, PanelHistory.panel_register, ← hslot]
    rfl
  case registration =>
    obtain ⟨n, hn, hreg⟩ := h.registration hr
    refine ⟨n, Nat.lt_succ_of_lt hn, hreg.trans ?_⟩
    simp [PanelHistory.mem_live_register, Nat.ne_of_lt hn]
  case live =>
    rw [PanelHistory.mem_live_register]
    exact (List.mem_cons.1 hn).elim .inr fun hn => .inl (h.pending_live n hn)
  case new =>
    rcases List.mem_cons.1 hn with rfl | hn
    · obtain ⟨n, hn, rfl⟩ := h.registration hr
      exact fun he => Nat.ne_of_lt hn (Nat.succ.inj he)
    · exact h.pending_new n hn hr

/-- The registration of a pending entry is handed out. -/
theorem push {n : Nat} (h : Stands (n :: pending) past p sh) :
    Stands pending past p
      { sh with registrations := sh.registrations.push ⟨p, n + 1, false⟩ } := by
  have hlive := h.pending_live n (List.mem_cons_self ..)
  have hnew : ∀ {r : RegistrationId} {reg : Registration}, sh.registrations[r]? = some reg →
      reg.number ≠ n + 1 := h.pending_new n (List.mem_cons_self ..)
  -- the registrations are those that were there and the one that is handed out
  have hpushed : ∀ {r reg}, (sh.registrations.push ⟨p, n + 1, false⟩)[r]? = some reg →
      sh.registrations[r]? = some reg ∨ r = sh.registrations.size ∧ reg = ⟨p, n + 1, false⟩ := by
    intro r reg hr
    rw [Array.getElem?_push] at hr
    split at hr
    · next he => exact .inr ⟨he, (Option.some.inj hr).symm⟩
    · exact .inl hr
  obtain ⟨hn, hnodup⟩ := List.nodup_cons.1 h.pending_nodup
  refine ⟨h.panel, fun hr => ?registration, fun hr hr' he => ?distinct, hnodup,
    fun a ha => h.pending_live a (List.mem_cons_of_mem _ ha), fun a ha r reg hr => ?new⟩
  case registration =>
    rcases hpushed hr with hr | ⟨-, rfl⟩
    · exact h.registration hr
    · exact ⟨n, PanelHistory.lt_of_mem_live hlive, by simp [hlive]⟩
  case distinct =>
    rcases hpushed hr with hr | ⟨rfl, rfl⟩ <;> rcases hpushed hr' with hr' | ⟨rfl, rfl⟩
    · exact h.distinct hr hr' he
    · exact absurd he (hnew hr)
    · exact absurd he.symm (hnew hr')
    · rfl
  case new =>
    rcases hpushed hr with hr | ⟨-, rfl⟩
    · exact h.pending_new a (List.mem_cons_of_mem _ ha) hr
    · exact fun he => hn (Nat.succ.inj he ▸ ha)

/-- The entry of a registration is released. -/
theorem release (h : Stands pending past p sh) {r : RegistrationId} {n : Nat}
    (hr : sh.registrations[r]? = some ⟨p, n + 1, false⟩) (o : Object) :
    Stands pending (.release n :: past) p
      (((sh.markReleased r).hold o).modifyPanel p fun pa => pa.release (n + 1)) := by
  obtain ⟨pa, hpa, hslot⟩ := h.exists_panel
  -- the registrations are as before, but that of the entry is released
  have hflagged : ∀ {r' : RegistrationId} {reg' : Registration},
      (sh.markReleased r).registrations[r']? = some reg' →
      ∃ reg, sh.registrations[r']? = some reg ∧ reg'.number = reg.number ∧
        reg' = if reg.number = n + 1 then ⟨reg.panel, reg.number, true⟩ else reg := by
    intro r' reg' hr'
    rw [Shell.markReleased, Array.getElem?_modify] at hr'
    split at hr'
    · next he =>
      subst he
      rw [hr] at hr'
      obtain rfl := Option.some.inj hr'
      exact ⟨_, hr, rfl, by simp⟩
    · next he =>
      exact ⟨reg', hr', rfl, (if_neg fun hn => he (h.distinct hr hr' hn.symm)).symm⟩
  refine ⟨?panel, fun hr' => ?registration, fun hr' hr'' he => ?distinct, h.pending_nodup,
    fun a ha => ?live, fun a ha r' reg' hr' => ?new⟩
  case panel =>
    refine (panel_modify hpa _).trans (congrArg some ?_)
    rw [PanelHistory.panel_release, ← hslot]
    rfl
  case registration =>
    obtain ⟨reg, hreg, -, rfl⟩ := hflagged hr'
    obtain ⟨a, ha, rfl⟩ := h.registration hreg
    refine ⟨a, ha, ?_⟩
    by_cases he : a = n <;> simp [PanelHistory.mem_live_release, he]
  case distinct =>
    obtain ⟨reg, hreg, hnumber, -⟩ := hflagged hr'
    obtain ⟨reg', hreg', hnumber', -⟩ := hflagged hr''
    exact h.distinct hreg hreg' (by rw [← hnumber, ← hnumber', he])
  case live =>
    rw [PanelHistory.mem_live_release]
    exact ⟨h.pending_live a ha, fun he => h.pending_new a ha hr (congrArg (· + 1) he.symm)⟩
  case new =>
    obtain ⟨reg, hreg, hnumber, -⟩ := hflagged hr'
    rw [hnumber]
    exact h.pending_new a ha hreg

end Stands

/-! ### Steps -/

/-- The place of a run at which steps are taken: the entries that are pending there, and an earlier
shell, in which the same was referred to and what was released is so still. -/
structure PanelFrame (α : Type) where
  pending : List Nat
  earlier : Shell α

/-- A shell stands as a history says, at a place of a run at which the panel is alive and no name
refers to a registration. -/
structure PanelFollows (p : PanelId) (i : PanelFrame α) (past : PanelHistory) (sh : Shell α) : Prop
    extends Shell.SameReferences i.earlier sh, Stands i.pending past p sh where
  released : ∀ r, i.earlier.Released r → sh.Released r
  alive : i.earlier.panelAlive p = true
  unreferenced : ∀ r, Object.registration r ∉ i.earlier.referenced

namespace PanelFollows

variable {i : PanelFrame α}

/-- A step that leaves the panel alone is not in its history. -/
theorem of_samePanel (h : PanelFollows p i past sh) (hs : Shell.SamePanel p sh sh') :
    PanelFollows p i past sh' where
  toSameReferences := h.toSameReferences.trans hs.toSameReferences
  toStands := h.toStands.of_eq hs.slot hs.registrations
  released r hr := by
    rw [Shell.Released, hs.registrations]
    exact h.released r hr
  alive := h.alive
  unreferenced := h.unreferenced

/-- A step that makes a change passes right after it and while the listeners are told. -/
theorem yields_change {act : Shell.Act α} {tr : Answers PanelMark α} {s : PanelStep α p}
    {c : PanelChange α} {j : PanelFrame α} (hact : Keeps (PanelFollows p) act tr)
    (hs : s.change? sh = some c)
    (hperform : s.perform act sh = c.settle (Shell.panelChanged act p c.shell))
    (hc : PanelFollows p j (c.mark :: past) c.shell)
    (hsettle : ∀ past sh', PanelFollows p j past sh' → PanelFollows p i past (c.settle sh')) :
    Yields (PanelFollows p) i past (s.stations act tr past sh) (s.perform act sh) := by
  have hchange := Yields.change hact (fun _ _ sh e h => h.of_samePanel (.note sh e)) (c.shell.panelTold p) past hc
  rw [← Shell.panelChanged_eq] at hchange
  simp only [PanelStep.stations, hs, hperform]
  exact hchange.settle fun past h => hsettle past _ h

/-- A step that changes nothing passes nowhere. -/
theorem yields_nothing {act : Shell.Act α} {tr : Answers PanelMark α} {s : PanelStep α p}
    (h : PanelFollows p i past sh) (hs : s.change? sh = none) (hperform : s.perform act sh = sh) :
    Yields (PanelFollows p) i past (s.stations act tr past sh) (s.perform act sh) := by
  simp only [PanelStep.stations, hs, hperform]
  exact .refl h

variable {act : Shell.Act α} {tr : Answers PanelMark α}

/-- A registration puts its entry on top, at each station of the listeners it tells. -/
theorem yields_register (hact : Keeps (PanelFollows p) act tr) (content : Option String)
    (h : PanelFollows p i past sh) :
    Yields (PanelFollows p) i past
      (PanelStep.stations act tr past sh (.register content : PanelStep α p))
      (PanelStep.perform act sh (.register content : PanelStep α p)) := by
  obtain ⟨pa, hpa, hslot⟩ := h.exists_panel
  have hnumber : (pa.register content).1 = past.registrations + 1 :=
    congrArg (·.issued + 1) hslot
  let c : PanelChange α := .register p content (past.registrations + 1) sh
  have hs : PanelStep.change? sh (.register content : PanelStep α p) = some c := by
    simp only [PanelStep.change?, hpa, Option.map_some, hnumber, c]
  have hperform : PanelStep.perform act sh (.register content : PanelStep α p)
      = c.settle (Shell.panelChanged act p c.shell) := by
    simp only [PanelStep.perform, Shell.registerContent, hpa, Option.map_some, Option.getD_some,
      hnumber]
    rfl
  -- the entry is pending while the listeners are told
  have hright : PanelFollows p ⟨past.registrations :: i.pending, i.earlier⟩ (c.mark :: past) c.shell :=
    ⟨⟨h.names, h.held, h.owners⟩, h.toStands.register content, h.released, h.alive, h.unreferenced⟩
  exact yields_change hact hs hperform hright fun _ _ h' =>
    ⟨⟨h'.names, h'.held, h'.owners⟩, h'.toStands.push, fun r hr => (h'.released r hr).push _,
      h.alive, h.unreferenced⟩

/-- Setting the content changes the entry of the owner, at each station of the listeners it
tells. -/
theorem yields_set (hact : Keeps (PanelFollows p) act tr) (revision : Revision (Option String))
    (h : PanelFollows p i past sh) :
    Yields (PanelFollows p) i past
      (PanelStep.stations act tr past sh (.set revision : PanelStep α p))
      (PanelStep.perform act sh (.set revision : PanelStep α p)) := by
  obtain ⟨pa, hpa, hslot⟩ := h.exists_panel
  -- the panel of the history and the one in the shell differ in their listeners only
  have hset : pa.slot.setEntry pa.visibleOwner (revision.apply pa.visible)
      = some (PanelHistory.panel (.set revision :: past)) := by
    rw [← PanelHistory.panel_set, ← hslot]
    rfl
  obtain ⟨changed, hchanged, hstands⟩ := Panel.slot_setEntry hset
  let c : PanelChange α := .set p revision changed sh
  have hs : PanelStep.change? sh (.set revision : PanelStep α p) = some c := by
    simp only [PanelStep.change?, hpa, Option.bind_some, hchanged, Option.map_some, c]
  have hperform : PanelStep.perform act sh (.set revision : PanelStep α p)
      = c.settle (Shell.panelChanged act p c.shell) := by
    simp only [PanelStep.perform, Shell.setContent, hpa, Revision.update, Option.bind_some,
      hchanged]
    rfl
  have hright : PanelFollows p i (c.mark :: past) c.shell :=
    ⟨⟨h.names, h.held, h.owners⟩, h.toStands.modify hpa hstands rfl rfl, h.released, h.alive, h.unreferenced⟩
  exact yields_change hact hs hperform hright fun _ _ h' => h'

/-- Opening and closing change no entry, at each station of the listeners it tells. -/
theorem yields_setOpened (hact : Keeps (PanelFollows p) act tr) (revision : Revision Bool)
    (h : PanelFollows p i past sh) :
    Yields (PanelFollows p) i past
      (PanelStep.stations act tr past sh (.setOpened revision : PanelStep α p))
      (PanelStep.perform act sh (.setOpened revision : PanelStep α p)) := by
  obtain ⟨pa, hpa, hslot⟩ := h.exists_panel
  have hopened : (pa.setOpened (revision.apply pa.opened)).slot
      = PanelHistory.panel (.setOpened revision :: past) := by
    rw [PanelHistory.panel_setOpened, ← hslot]
    rfl
  let c : PanelChange α := .setOpened p revision pa.opened sh
  have hs : PanelStep.change? sh (.setOpened revision : PanelStep α p) = some c := by
    simp only [PanelStep.change?, hpa, Option.map_some, c]
  have hperform : PanelStep.perform act sh (.setOpened revision : PanelStep α p)
      = c.settle (Shell.panelChanged act p c.shell) := by
    simp only [PanelStep.perform, Shell.setOpened, hpa, Revision.update]
    rfl
  have hright : PanelFollows p i (c.mark :: past) c.shell :=
    ⟨⟨h.names, h.held, h.owners⟩, h.toStands.modify hpa hopened rfl rfl, h.released, h.alive, h.unreferenced⟩
  exact yields_change hact hs hperform hright fun _ _ h' => h'

/-- An object that nothing refers to ends when it is dropped. -/
theorem drop_eq_release (h : PanelFollows p i past sh) (act : Shell.Act α) (r : RegistrationId) :
    Shell.letGo act (.registration r) sh = Shell.releaseRegistration act r sh := by
  have hr : Object.registration r ∉ sh.referenced := by
    rw [h.referenced]
    exact h.unreferenced r
  simp only [Shell.letGo, if_neg hr]

/-- A registration whose entry is live ends it. -/
theorem release_of_live (h : PanelFollows p i past sh) {r : RegistrationId} {n : Nat}
    (hr : sh.registrations[r]? = some ⟨p, n + 1, false⟩) (act : Shell.Act α) :
    Shell.releaseRegistration act r sh = (PanelChange.release p r (n + 1) sh).settle
      (Shell.panelChanged act p (PanelChange.release p r (n + 1) sh).shell) := by
  obtain ⟨pa, hpa, hslot⟩ := h.exists_panel
  have hlive : n ∈ past.live := by
    obtain ⟨n', hlive, hreg⟩ := h.exists_live hr rfl
    rwa [Nat.succ.inj (congrArg Registration.number hreg)]
  have hregistered : pa.registered (n + 1) = true := by
    rw [← decide_eq_true hlive, ← PanelHistory.registered_panel, ← hslot]
    rfl
  have halive : (sh.markReleased r).panelAlive p = true := by
    rw [← h.alive, ← h.toSameReferences.panelAlive]
    rfl
  simp only [Shell.releaseRegistration, hr, Bool.false_eq_true, if_false]
  show Shell.releaseEntry act p (n + 1) (sh.markReleased r) = _
  have hpa' : (sh.markReleased r).panels[p]? = some pa := hpa
  simp only [Shell.releaseEntry, hpa', halive, hregistered, Bool.and_self, if_true]
  rfl

/-- Once its listeners were told, the registration is released, as all are that were. -/
theorem yields_release_of_live (hact : Keeps (PanelFollows p) act tr) (h : PanelFollows p i past sh)
    {r : RegistrationId} {n : Nat} (hr : sh.registrations[r]? = some ⟨p, n + 1, false⟩) :
    Yields (PanelFollows p) ⟨i.pending, sh.markReleased r⟩ past
      (PanelStep.stations act tr past sh (.release r : PanelStep α p))
      (PanelStep.perform act sh (.release r : PanelStep α p)) := by
  have hs := PanelStep.change?_release (p := p) hr rfl
  have halive : sh.panelAlive p = true := by
    rw [h.panelAlive]
    exact h.alive
  have hunreferenced : ∀ r, Object.registration r ∉ sh.referenced := by
    rw [h.referenced]
    exact h.unreferenced
  -- the panel is held while the listeners are told
  have hright : PanelFollows p ⟨i.pending, (sh.markReleased r).hold (.panel p)⟩ (.release n :: past)
      (PanelChange.release p r (n + 1) sh).shell :=
    ⟨⟨rfl, rfl, rfl⟩, h.toStands.release hr _, fun _ hr => hr, Shell.panelAlive_hold _ p,
      fun r => Shell.not_mem_referenced_hold (hunreferenced r) nofun⟩
  exact yields_change hact hs (h.release_of_live hr act) hright fun _ _ h' =>
    ⟨⟨h'.names, congrArg List.tail h'.held, h'.owners⟩, h'.toStands.of_eq rfl rfl, h'.released,
      halive, hunreferenced⟩

/-- What is known of an earlier shell is known of one before it. -/
theorem of_earlier {past' : PanelHistory} (h : PanelFollows p i past sh)
    (h' : PanelFollows p ⟨i.pending, sh⟩ past' sh') : PanelFollows p i past' sh' :=
  ⟨h.toSameReferences.trans h'.toSameReferences, h'.toStands,
    fun r hr => h'.released r (h.released r hr), h.alive, h.unreferenced⟩

/-- A release takes its entry away, at each station of the listeners it tells. -/
theorem yields_release (hact : Keeps (PanelFollows p) act tr) (r : RegistrationId)
    (h : PanelFollows p i past sh) :
    Yields (PanelFollows p) i past
      (PanelStep.stations act tr past sh (.release r : PanelStep α p))
      (PanelStep.perform act sh (.release r : PanelStep α p)) := by
  rcases sh.released_or_unreleased r with hr | ⟨reg, hr, hreleased⟩
  · have hs : PanelStep.change? sh (.release r : PanelStep α p) = none := by
      simpa [PanelStep.change?] using hr
    exact yields_nothing h hs (Shell.releaseRegistration_eq_self hr act)
  · obtain ⟨n, -, rfl⟩ := h.exists_live hr hreleased
    refine (h.yields_release_of_live hact hr).settle fun past' h' => h.of_earlier ?_
    exact ⟨⟨h'.names, h'.held, h'.owners⟩, h'.toStands,
      fun _ hr => h'.released _ (hr.markReleased r), h'.alive, h'.unreferenced⟩

end PanelFollows

variable {i : PanelFrame α}

/-- What every step on a panel keeps. -/
theorem yields_step (s : PanelStep α p) (act : Shell.Act α) (tr : Answers PanelMark α)
    (hact : Keeps (PanelFollows p) act tr) (i : PanelFrame α) (past : PanelHistory) (sh : Shell α)
    (h : PanelFollows p i past sh) :
    Yields (PanelFollows p) i past (s.stations act tr past sh) (s.perform act sh) := by
  cases s with
  | register content => exact h.yields_register hact content
  | release r => exact h.yields_release hact r
  | drop r =>
    have hdrop : (PanelStep.drop r : PanelStep α p).perform act sh
        = (PanelStep.release r : PanelStep α p).perform act sh := h.drop_eq_release act r
    rw [hdrop]
    exact h.yields_release hact r
  | forget r => exact h.yields_nothing rfl rfl
  | set revision => exact h.yields_set hact revision
  | setOpened revision => exact h.yields_setOpened hact revision
  | aside a => exact .refl (h.of_samePanel (a.same sh))

/-- Every station of a run stands as what was noted before it says. -/
theorem yields_run (course : Course (PanelStep α p) α) (h : PanelFollows p i past sh) :
    Yields (PanelFollows p) i past (course.stations (PanelStep.conduct α p) past sh)
      (course.run (PanelStep.conduct α p) sh) :=
  course.yields yields_step h

/-! ### What a station shows -/

namespace PanelFollows

variable {past : PanelHistory}

/-- What the panel shows is the content that the history gives it. -/
theorem panelContent (h : PanelFollows p i past sh) : sh.panelContent p = past.panel.visible := by
  obtain ⟨pa, hpa, hslot⟩ := h.exists_panel
  rw [Shell.panelContent, hpa, ← hslot]
  rfl

/-- The snapshot of the panel is that of the history. -/
theorem panelSnapshot (h : PanelFollows p i past sh) : sh.panelSnapshot p = past.panel.snapshot := by
  obtain ⟨pa, hpa, hslot⟩ := h.exists_panel
  rw [Shell.panelSnapshot, hpa, ← hslot]
  rfl

/-- A panel is open as its snapshot says. -/
theorem panelIsOpen (h : PanelFollows p i past sh) :
    sh.panelIsOpen p = (sh.panelSnapshot p).isOpen := by
  obtain ⟨pa, hpa, -⟩ := h.exists_panel
  rw [Shell.panelIsOpen, Shell.panelSnapshot, hpa]
  rfl

/-- Releasing an entry that is not the visible one leaves what is shown. -/
theorem panelSnapshot_release (h : PanelFollows p i past sh) {r : RegistrationId} {n : Nat}
    {released : Bool} (hr : sh.registrations[r]? = some ⟨p, n + 1, released⟩)
    (hn : past.owner ≠ some n) {act : Shell.Act α} (hact : Shell.LeavesPanel act p) :
    (Shell.releaseRegistration act r sh).panelSnapshot p = sh.panelSnapshot p := by
  cases released with
  | true => rw [Shell.releaseRegistration_eq_self (by simp [hr])]
  | false =>
    have hkeeps : Keeps (PanelFollows p) act (fun _ _ _ => []) := fun call _ _ sh h' =>
      .refl (h'.of_samePanel (hact call sh))
    have hs := PanelStep.change?_release (p := p) hr rfl
    have hafter := (h.yields_release hkeeps r).last
    simp only [PanelStep.stations, hs, Shell.changeStations, Shell.callStations_nil] at hafter
    have howner : past.panel.visibleOwner ≠ some (n + 1) := by
      rw [PanelHistory.visibleOwner_panel]
      simpa using hn
    refine hafter.panelSnapshot.trans ?_
    rw [h.panelSnapshot, ← Panel.snapshot_release_of_ne _ _ howner, ← PanelHistory.panel_release]
    rfl

/-- An entry that was released has nothing left to release. -/
theorem release_release (h : PanelFollows p i past sh) {act : Shell.Act α} {tr : Answers PanelMark α}
    (hact : Keeps (PanelFollows p) act tr) (r : RegistrationId) (act' : Shell.Act α) :
    Shell.releaseRegistration act' r (Shell.releaseRegistration act r sh) =
      Shell.releaseRegistration act r sh := by
  refine Shell.releaseRegistration_eq_self (fun reg hreg => ?_) act'
  rcases sh.released_or_unreleased r with hr | ⟨reg', hr, hreleased⟩
  · rw [Shell.releaseRegistration_eq_self hr] at hreg
    exact hr reg hreg
  · obtain ⟨n, -, rfl⟩ := h.exists_live hr hreleased
    have hafter := (h.yields_release_of_live hact hr).last
    have hdone : (Shell.releaseRegistration act r sh).Released r :=
      hafter.released r (Shell.released_markReleased hr)
    simpa [Shell.Released, hreg] using hdone

end PanelFollows

/-- What a panel shows is owned as a history says.  Releases and drops may be answered by callbacks
that take steps on the panel again. -/
structure Shell.OwnedAs (p : PanelId) (past : PanelHistory) (sh : Shell α) : Prop where
  owner : ∀ n, past.owner = some n ↔ n ∈ past.live ∧ ∀ m ∈ past.live, m ≤ n
  content : sh.panelContent p = past.content past.owner
  panel : ∃ pa, sh.panels[p]? = some pa ∧ pa.base = past.content none ∧
    pa.stack = (past.live.map fun n => (n + 1, past.content (some n))) ∧ pa.opened = past.opened
  registration : ∀ (r : RegistrationId) (reg : Registration), sh.registrations[r]? = some reg →
    ∃ n, n < past.registrations ∧ reg = ⟨p, n + 1, decide (n ∉ past.live)⟩
  snapshot : sh.panelSnapshot p =
    ⟨sh.panelContent p, past.opened && (sh.panelContent p).isSome⟩
  isOpen : sh.panelIsOpen p = (sh.panelSnapshot p).isOpen
  drop : ∀ (act : Shell.Act α) (r : RegistrationId),
    Shell.letGo act (.registration r) sh = Shell.releaseRegistration act r sh
  release_hidden : ∀ (r : RegistrationId) (n : Nat) (released : Bool),
    sh.registrations[r]? = some ⟨p, n + 1, released⟩ → past.owner ≠ some n →
    ∀ act, Shell.LeavesPanel act p →
      (Shell.releaseRegistration act r sh).panelSnapshot p = sh.panelSnapshot p
  release_twice : ∀ (answer : Call → Shell α → Course (PanelStep α p) α) (r : RegistrationId)
    (act' : Shell.Act α),
    let act : Shell.Act α := fun call sh => (answer call sh).run (PanelStep.conduct α p) sh
    Shell.releaseRegistration act' r (Shell.releaseRegistration act r sh) =
      Shell.releaseRegistration act r sh

/-- Where the history describes the panel, the panel is owned as the history says. -/
theorem PanelFollows.ownedAs {past : PanelHistory} (h : PanelFollows p i past sh) :
    sh.OwnedAs p past where
  owner _ := PanelHistory.owner_eq_some_iff
  content := h.panelContent.trans past.visible_panel
  panel := by
    obtain ⟨pa, hpa, hslot⟩ := h.exists_panel
    exact ⟨pa, hpa, congrArg Panel.base hslot, congrArg Panel.stack hslot,
      congrArg Panel.opened hslot⟩
  registration _ _ hr := h.registration hr
  snapshot := by
    rw [h.panelSnapshot, h.panelContent]
    rfl
  isOpen := h.panelIsOpen
  drop := h.drop_eq_release
  release_hidden _ _ _ hr hn _ hact := h.panelSnapshot_release hr hn hact
  release_twice answer r act' := by
    have hact : Keeps (PanelFollows p) (fun call sh => (answer call sh).run (PanelStep.conduct α p) sh)
        (fun call past sh => (answer call sh).stations (PanelStep.conduct α p) past sh) :=
      fun call _ _ sh h => yields_run (answer call sh) h
    exact h.release_release hact r act'

/-- A panel that was just made: it is alive, shows nothing, and has no registrations. -/
structure Shell.NewPanel (p : PanelId) (start : Shell α) : Prop where
  panel : start.panels[p]?.map Panel.slot = some .empty
  registrations : start.registrations = #[]
  alive : start.panelAlive p = true
  unreferenced : ∀ r, Object.registration r ∉ start.referenced

/-- A new panel is described by the empty history. -/
theorem Shell.NewPanel.follows {start : Shell α} (hs : start.NewPanel p) :
    PanelFollows p ⟨[], start⟩ [] start where
  toSameReferences := .refl start
  panel := hs.panel
  registration hr := by simp [hs.registrations] at hr
  distinct hr := by simp [hs.registrations] at hr
  pending_nodup := List.nodup_nil
  pending_live := nofun
  pending_new := nofun
  released _ hr := hr
  alive := hs.alive
  unreferenced := hs.unreferenced

/-- In every run of steps on a new panel, at every station: the latest live registration owns what
is shown, each entry holds what the revisions made of it while it was visible, and the panel is
open if it was opened and shows something. -/
theorem panel_at_station {start : Shell α} (hs : start.NewPanel p)
    (course : Course (PanelStep α p) α) :
    ((course.stations (PanelStep.conduct α p) [] start).head?.map Station.shell =
      some (course.run (PanelStep.conduct α p) start)) ∧
    ∀ st ∈ course.stations (PanelStep.conduct α p) [] start, st.shell.OwnedAs p st.past := by
  refine ⟨course.head?_stations _ [] start, fun st hst => ?_⟩
  obtain ⟨i, hi⟩ := (yields_run course hs.follows).all st hst
  exact hi.ownedAs

/-- A shell with one panel, to which somebody listens. -/
def overlaidStart : Shell Unit :=
  { Shell.empty with
    panels := #[{ Panel.empty with listeners := (Listeners.empty.insert ⟨"listener", 0⟩).2 }]
    names := [("panel", .panel 0)] }

/-- The listener covers a draft with help as soon as it is shown; what is set then stays with the
help, which is released before the draft is. -/
def overlaid : Course (PanelStep Unit 0) Unit :=
  let quiet : Call → Shell Unit → Course (PanelStep Unit 0) Unit := fun _ _ => .done
  .step (.setOpened (.value true)) quiet fun _ =>
  .step (.register (some "draft"))
    (fun _ _ => .step (.register (some "help")) quiet fun _ => .done) fun _ =>
  .step (.set (.function fun content => content.map (· ++ "!"))) quiet fun _ =>
  .step (.release 0) quiet fun _ => .done

/-- What is noted of the panel of `overlaid`; the help is its entry 1. -/
def overlaidPast : PanelHistory :=
  [ .release 1,
    .set (.function fun content => content.map (· ++ "!")),
    .register (some "help"),
    .register (some "draft"),
    .setOpened (.value true) ]

/-- What is set while help covers the draft stays with the help, so that the draft shows as it was
once the help is released. -/
theorem panel_at_station_overlaid :
    overlaidStart.NewPanel 0 ∧
      (overlaid.run (PanelStep.conduct Unit 0) overlaidStart).OwnedAs 0 overlaidPast ∧
      overlaidPast.content overlaidPast.owner = some "draft" := by
  have hstart : overlaidStart.NewPanel 0 :=
    ⟨rfl, rfl, rfl, fun r => by simp [overlaidStart, Shell.referenced, Shell.empty]⟩
  have hlast : (overlaid.stations (PanelStep.conduct Unit 0) [] overlaidStart).head? =
      some ⟨overlaidPast, overlaid.run (PanelStep.conduct Unit 0) overlaidStart⟩ := rfl
  exact ⟨hstart, (panel_at_station hstart overlaid).2 _ (List.mem_of_head? hlast), rfl⟩

end AppShell
