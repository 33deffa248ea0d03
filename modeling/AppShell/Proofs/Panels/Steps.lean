/-
AppShell/Proofs/Panels/Steps.lean

What is done with a panel and its registrations.

A registration that is dropped ends as any object does to which nothing refers;
one that is forgotten is kept by nobody and never ends.  Between the steps on the
panel anything may happen that leaves the panel alone (`PanelAside`).

A step that changes the panel does so before the listeners are told
(`PanelStep.change?`): this is where it is noted, under the number of the entry
that it is about, and the listeners may take steps on the panel again.
-/
import AppShell.Proofs.Course
import AppShell.Proofs.Panels.History
import AppShell.Shell.Lifetime

namespace AppShell

/-- What stands in a panel, whoever listens to it. -/
def Panel.slot (pa : Panel) : Panel :=
  { pa with listeners := .empty }

/-- An entry is set in a panel whoever listens to it. -/
theorem Panel.slot_setEntry {pa changed : Panel} {owner : Option Nat} {content : Option String}
    (h : pa.slot.setEntry owner content = some changed) :
    ∃ pa', pa.setEntry owner content = some pa' ∧ pa'.slot = changed := by
  cases owner with
  | none => exact ⟨_, rfl, Option.some.inj h⟩
  | some number =>
    have hslot : pa.slot.registered number = pa.registered number := rfl
    simp only [setEntry, hslot] at h ⊢
    split at h
    · next hr => exact ⟨_, if_pos hr, Option.some.inj h⟩
    · cases h

namespace Shell

variable {α : Type} {p : PanelId} {sh sh' sh'' : Shell α}

/-! ### Shells with the same panel -/

/-- All that refers to something stays. -/
structure SameReferences (sh sh' : Shell α) : Prop where
  names : sh'.names = sh.names
  held : sh'.held = sh.held
  owners : sh'.owners = sh.owners

/-- A panel stands as it stood, and so do the registrations and all that refers to something. -/
structure SamePanel (p : PanelId) (sh sh' : Shell α) : Prop extends SameReferences sh sh' where
  slot : sh'.panels[p]?.map Panel.slot = sh.panels[p]?.map Panel.slot
  registrations : sh'.registrations = sh.registrations

/-- Callbacks that leave a panel alone. -/
def LeavesPanel (act : Act α) (p : PanelId) : Prop :=
  ∀ call sh, SamePanel p sh (act call sh)

namespace SameReferences

theorem refl (sh : Shell α) : SameReferences sh sh := ⟨rfl, rfl, rfl⟩

theorem trans (h : SameReferences sh sh') (h' : SameReferences sh' sh'') :
    SameReferences sh sh'' where
  names := h'.names.trans h.names
  held := h'.held.trans h.held
  owners := h'.owners.trans h.owners

/-- What is referred to depends on names and holds only. -/
theorem referenced (h : SameReferences sh sh') : sh'.referenced = sh.referenced := by
  rw [Shell.referenced, Shell.referenced, h.names, h.held]

/-- Whether a panel is alive depends on what refers to it only. -/
theorem panelAlive (h : SameReferences sh sh') (p : PanelId) :
    sh'.panelAlive p = sh.panelAlive p := by
  have hkeeps : sh'.keepsPanel p = sh.keepsPanel p := by
    funext o
    cases o <;> simp only [Shell.keepsPanel, h.owners]
  rw [Shell.panelAlive, Shell.panelAlive, h.referenced, hkeeps]

end SameReferences

/-- A panel that is held is alive. -/
theorem panelAlive_hold (sh : Shell α) (p : PanelId) : (sh.hold (.panel p)).panelAlive p = true := by
  simp [Shell.panelAlive, Shell.referenced, Shell.hold, Shell.keepsPanel]

/-- Holding one object makes no reference to another. -/
theorem not_mem_referenced_hold {o o' : Object} (h : o ∉ sh.referenced) (hne : o ≠ o') :
    o ∉ (sh.hold o').referenced := by
  simpa [Shell.referenced, Shell.hold, hne] using h

namespace SamePanel

theorem refl (sh : Shell α) : SamePanel p sh sh := ⟨.refl sh, rfl, rfl⟩

theorem trans (h : SamePanel p sh sh') (h' : SamePanel p sh' sh'') : SamePanel p sh sh'' where
  toSameReferences := h.toSameReferences.trans h'.toSameReferences
  slot := h'.slot.trans h.slot
  registrations := h'.registrations.trans h.registrations

/-- Noting an event leaves the panel as it stands. -/
theorem note (sh : Shell α) (e : Event) : SamePanel p sh (sh.note e) :=
  ⟨⟨rfl, rfl, rfl⟩, rfl, rfl⟩

end SamePanel

/-! ### Telling the listeners of a panel -/

/-- The callbacks of the listeners of a panel, and what each is told. -/
def panelTold (sh : Shell α) (p : PanelId) : List (CallbackId × Event) :=
  (sh.panels[p]?.map fun pa =>
    pa.listeners.snapshot.map fun l => (l.callback, .panel l.label pa.snapshot)).getD []

/-- A change of a panel is told to the listeners it has by then. -/
theorem panelChanged_eq (act : Act α) (p : PanelId) (sh : Shell α) :
    panelChanged act p sh = callEach act (sh.panelTold p) sh := by
  rcases h : sh.panels[p]? with - | pa
  · simp only [panelChanged, panelTold, h]
    rfl
  · simp only [panelChanged, panelTold, h, callEach, Option.map_some, Option.getD_some,
      List.foldl_map]

end Shell

/-! ### Steps -/

variable {α : Type} {p : PanelId}

/-- Something that leaves a panel alone. -/
structure PanelAside (α : Type) (p : PanelId) where
  perform : Shell α → Shell α
  same : ∀ sh, Shell.SamePanel p sh (perform sh)

/-- Something done with a panel or one of its registrations. -/
inductive PanelStep (α : Type) (p : PanelId) where
  | register (content : Option String)
  | release (r : RegistrationId)
  | drop (r : RegistrationId)
  | forget (r : RegistrationId)
  | set (revision : Revision (Option String))
  | setOpened (revision : Revision Bool)
  | aside (a : PanelAside α p)

/-- A change of a panel: what is noted of it, the shell right after it, in which the listeners are
told, and what is left to do once they were. -/
structure PanelChange (α : Type) where
  mark : PanelMark
  shell : Shell α
  settle : Shell α → Shell α

/-- A registration is released. -/
def Shell.markReleased (sh : Shell α) (r : RegistrationId) : Shell α :=
  { sh with registrations := sh.registrations.modify r fun reg => { reg with released := true } }

/-- Whether a registration is there and was released. -/
def Shell.Released (sh : Shell α) (r : RegistrationId) : Prop :=
  sh.registrations[r]?.map Registration.released = some true

/-- What was released stays so when another registration is. -/
theorem Shell.Released.markReleased {sh : Shell α} {r : RegistrationId} (h : sh.Released r)
    (r' : RegistrationId) : (sh.markReleased r').Released r := by
  rw [Released, Shell.markReleased, Array.getElem?_modify]
  split
  · rw [Option.map_map]
    obtain ⟨reg, hreg, -⟩ := Option.map_eq_some_iff.1 h
    rw [hreg]
    rfl
  · exact h

/-- What was released stays so when a registration is made. -/
theorem Shell.Released.push {sh : Shell α} {r : RegistrationId} (h : sh.Released r)
    (reg : Registration) :
    ({ sh with registrations := sh.registrations.push reg } : Shell α).Released r := by
  obtain ⟨reg', hreg', hreleased⟩ := Option.map_eq_some_iff.1 h
  have hlt := (Array.getElem?_eq_some_iff.1 hreg').1
  rw [Released, Array.getElem?_push, if_neg (Nat.ne_of_lt hlt), hreg']
  exact congrArg some hreleased

/-- A registration that is marked is released. -/
theorem Shell.released_markReleased {sh : Shell α} {r : RegistrationId} {reg : Registration}
    (h : sh.registrations[r]? = some reg) : (sh.markReleased r).Released r := by
  rw [Released, markReleased, Array.getElem?_modify, if_pos rfl, h]
  rfl

/-- A registration has nothing left to release, or an entry that was not released. -/
theorem Shell.released_or_unreleased (sh : Shell α) (r : RegistrationId) :
    (∀ reg, sh.registrations[r]? = some reg → reg.released = true) ∨
      ∃ reg, sh.registrations[r]? = some reg ∧ reg.released = false := by
  rcases sh.registrations[r]? with - | ⟨p, number, released⟩
  · exact .inl nofun
  · cases released with
    | true => exact .inl fun _ h => Option.some.inj h ▸ rfl
    | false => exact .inr ⟨_, rfl, rfl⟩

/-- A registration that was released, or is none, has nothing left to release. -/
theorem Shell.releaseRegistration_eq_self {sh : Shell α} {r : RegistrationId}
    (hr : ∀ reg, sh.registrations[r]? = some reg → reg.released = true) (act : Shell.Act α) :
    Shell.releaseRegistration act r sh = sh := by
  rcases he : sh.registrations[r]? with - | reg
  · simp only [Shell.releaseRegistration, he]
  · simp only [Shell.releaseRegistration, he, hr reg he, if_true]

namespace PanelChange

/-- An entry is put on top; its registration is handed out in the end. -/
def register (p : PanelId) (content : Option String) (number : Nat) (sh : Shell α) :
    PanelChange α where
  mark := .register content
  shell := sh.modifyPanel p fun pa => (pa.register content).2
  settle sh := { sh with registrations := sh.registrations.push ⟨p, number, false⟩ }

/-- The entry of a registration is taken away; the panel lives at least until this is told. -/
def release (p : PanelId) (r : RegistrationId) (number : Nat) (sh : Shell α) : PanelChange α where
  mark := .release (number - 1)
  shell := ((sh.markReleased r).hold (.panel p)).modifyPanel p fun pa => pa.release number
  settle := Shell.unhold

/-- The visible entry is revised, which leads to a changed panel. -/
def set (p : PanelId) (revision : Revision (Option String)) (changed : Panel) (sh : Shell α) :
    PanelChange α where
  mark := .set revision
  shell := sh.modifyPanel p fun _ => changed
  settle := id

/-- The flag is revised. -/
def setOpened (p : PanelId) (revision : Revision Bool) (opened : Bool) (sh : Shell α) :
    PanelChange α where
  mark := .setOpened revision
  shell := sh.modifyPanel p fun pa => pa.setOpened (revision.apply opened)
  settle := id

end PanelChange

namespace PanelStep

/-- What a step does to a shell. -/
def perform (act : Shell.Act α) (sh : Shell α) : PanelStep α p → Shell α
  | .register content => (Shell.registerContent act p content sh).2
  | .release r => Shell.releaseRegistration act r sh
  | .drop r => Shell.letGo act (.registration r) sh
  | .forget _ => sh
  | .set revision => Shell.setContent act p revision.update sh
  | .setOpened revision => Shell.setOpened act p revision.update sh
  | .aside a => a.perform sh

/-- The change of the panel that a step makes, if it makes one. -/
def change? (sh : Shell α) : PanelStep α p → Option (PanelChange α)
  | .register content => sh.panels[p]?.map fun pa =>
    .register p content (pa.register content).1 sh
  | .release r | .drop r => (sh.registrations[r]?.filter fun reg => !reg.released).map fun reg =>
    .release p r reg.number sh
  | .set revision => sh.panels[p]?.bind fun pa =>
    (pa.setEntry pa.visibleOwner (revision.apply pa.visible)).map fun changed =>
      .set p revision changed sh
  | .setOpened revision => sh.panels[p]?.map fun pa => .setOpened p revision pa.opened sh
  | .forget _ | .aside _ => none

/-- A registration that was not released yet is released by its release. -/
theorem change?_release {sh : Shell α} {r : RegistrationId} {reg : Registration}
    (hr : sh.registrations[r]? = some reg) (hreleased : reg.released = false) :
    change? sh (.release r : PanelStep α p) = some (.release p r reg.number sh) := by
  simp only [change?, hr, Option.filter_some, hreleased, Bool.not_false, if_true, Option.map_some]

/-- The stations of a step: the one right after its change, and those of the listeners. -/
def stations (act : Shell.Act α) (tr : Answers PanelMark α) (past : PanelHistory) (sh : Shell α)
    (s : PanelStep α p) : Stations PanelMark α :=
  match s.change? sh with
  | none => []
  | some c => Shell.changeStations act tr (c.shell.panelTold p) (c.mark :: past) c.shell

/-- How the steps on a panel are performed and noted. -/
def conduct (α : Type) (p : PanelId) : Conduct (PanelStep α p) PanelMark α where
  perform s act sh := s.perform act sh
  stations s act tr past sh := s.stations act tr past sh

end PanelStep

end AppShell
