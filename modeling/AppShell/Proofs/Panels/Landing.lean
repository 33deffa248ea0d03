/-
AppShell/Proofs/Panels/Landing.lean

Where the content of an update lands.

An update of the visible entry may take any moves on the panel before it gives the
new content (`Shell.setAfter`).  The entry that it began with may be hidden by
then, and it may have been released, which is known by its number alone: the
numbers of a panel are different at every time and none is given out twice, and a
registration keeps the number of its entry (`RegistrationsKept`).

The main statement is `set_lands_on_its_entry`: at every station of every run,
whatever moves an update takes, a set leaves the panel as these moves left it, but
for the entry that it began with; and it tells nobody if that entry was released.
-/
import AppShell.Proofs.Panels.Updaters
import Mathlib.Data.List.Nodup

namespace AppShell

variable {α : Type} {p : PanelId} {past : PanelHistory} {sh sh' : Shell α}

/-! ### Registrations stay -/

namespace Shell

/-- The registrations that were there are still there, each with its panel and its entry. -/
def RegistrationsKept (sh sh' : Shell α) : Prop :=
  sh.registrations.toList.map (fun reg => (reg.panel, reg.number)) <+:
    sh'.registrations.toList.map fun reg => (reg.panel, reg.number)

namespace RegistrationsKept

/-- A step that leaves the registrations alone keeps them. -/
theorem of_registrations (h : sh'.registrations = sh.registrations) : RegistrationsKept sh sh' := by
  show sh.registrations.toList.map (fun reg => (reg.panel, reg.number)) <+:
    sh'.registrations.toList.map fun reg => (reg.panel, reg.number)
  exact h ▸ List.prefix_refl _

/-- Kept registrations are kept by one step after the other. -/
theorem onward : Onward (RegistrationsKept (α := α)) where
  refl _ := List.prefix_refl _
  trans h h' := List.IsPrefix.trans h h'
  note _ _ := of_registrations rfl

/-- A registration that was there is there later, under the same number. -/
theorem exists_registration (h : RegistrationsKept sh sh') {r : RegistrationId}
    {reg : Registration} (hr : sh.registrations[r]? = some reg) :
    ∃ reg', sh'.registrations[r]? = some reg' ∧ reg'.number = reg.number := by
  obtain ⟨reg', hreg', he⟩ := exists_of_prefix h hr
  exact ⟨reg', hreg', (Prod.mk.inj he).2⟩

/-- A new registration comes behind those that were there. -/
theorem push (sh : Shell α) (reg : Registration) :
    RegistrationsKept sh { sh with registrations := sh.registrations.push reg } := by
  simp only [RegistrationsKept, Array.toList_push, List.map_append]
  exact List.prefix_append _ _

/-- A released registration stays in its place. -/
theorem markReleased (sh : Shell α) (r : RegistrationId) :
    RegistrationsKept sh (sh.markReleased r) := by
  have hsame : (sh.markReleased r).registrations.toList.map (fun reg => (reg.panel, reg.number))
      = sh.registrations.toList.map fun reg => (reg.panel, reg.number) := by
    refine List.ext_getElem? fun j => ?_
    simp only [Shell.markReleased, List.getElem?_map, Array.getElem?_toList, Array.getElem?_modify]
    split
    · rw [Option.map_map]
      rfl
    · rfl
  show sh.registrations.toList.map (fun reg => (reg.panel, reg.number)) <+:
    (sh.markReleased r).registrations.toList.map fun reg => (reg.panel, reg.number)
  exact hsame ▸ List.prefix_refl _

variable {act : Act α} (hact : ∀ call (sh : Shell α), RegistrationsKept sh (act call sh))
include hact

/-- Telling the listeners of a panel keeps the registrations when what they call does. -/
theorem panelChanged (p : PanelId) (f : Panel → Panel) (sh : Shell α) :
    RegistrationsKept sh (Shell.panelChanged act p (sh.modifyPanel p f)) := by
  rw [panelChanged_eq]
  exact onward.callEach hact _ (sh.modifyPanel p f)

/-- Registering content keeps the registrations that were there. -/
theorem registerContent (p : PanelId) (content : Option String) (sh : Shell α) :
    RegistrationsKept sh (Shell.registerContent act p content sh).2 :=
  onward.trans (panelChanged hact p _ sh) (push _ _)

/-- Releasing a registration keeps them all, that one marked. -/
theorem releaseRegistration (r : RegistrationId) (sh : Shell α) :
    RegistrationsKept sh (Shell.releaseRegistration act r sh) := by
  unfold Shell.releaseRegistration
  split
  · exact onward.refl sh
  · next reg _ =>
    split
    · exact onward.refl sh
    · refine onward.trans (markReleased sh r) ?_
      show RegistrationsKept _ (Shell.releaseEntry act reg.panel reg.number (sh.markReleased r))
      unfold Shell.releaseEntry
      split
      · exact onward.refl _
      · -- the panel is held while its listeners are told
        split
        · exact panelChanged hact reg.panel _ ((sh.markReleased r).hold (.panel reg.panel))
        · exact onward.refl _

/-- Setting the content keeps the registrations when the updater does. -/
theorem setContent (p : PanelId)
    {update : Option String → Shell α → Option String × Shell α}
    (hupdate : ∀ content sh, RegistrationsKept sh (update content sh).2) (sh : Shell α) :
    RegistrationsKept sh (Shell.setContent act p update sh) := by
  rcases e : sh.panels[p]? with - | pa
  · simp only [Shell.setContent, e]
    exact onward.refl sh
  · have hafter := hupdate pa.visible sh
    simp only [Shell.setContent, e]
    generalize update pa.visible sh = after at hafter ⊢
    split
    · exact hafter
    · exact onward.trans hafter (panelChanged hact p _ _)

/-- Opening or closing the panel keeps the registrations when the updater does. -/
theorem setOpened (p : PanelId) {update : Bool → Shell α → Bool × Shell α}
    (hupdate : ∀ opened sh, RegistrationsKept sh (update opened sh).2) (sh : Shell α) :
    RegistrationsKept sh (Shell.setOpened act p update sh) := by
  rcases e : sh.panels[p]? with - | pa
  · simp only [Shell.setOpened, e]
    exact onward.refl sh
  · simp only [Shell.setOpened, e]
    exact onward.trans (hupdate pa.opened sh) (panelChanged hact p _ _)

end RegistrationsKept

end Shell

open Shell (RegistrationsKept)

/-- No move takes a registration away, or moves it to another entry. -/
theorem PanelMove.registrationsKept (m : PanelMove α p) {act : Shell.Act α}
    (hact : ∀ call (sh : Shell α), RegistrationsKept sh (act call sh)) (sh : Shell α) :
    RegistrationsKept sh (m.perform act sh) := by
  have hsame : ∀ sh : Shell α, RegistrationsKept sh sh := RegistrationsKept.onward.refl
  cases m with
  | set u => exact .setContent hact p (fun _ sh => hact (.turn u.turn) sh) sh
  | setOpened u =>
    have hturn : ∀ opened sh, RegistrationsKept sh (u.update act opened sh).2 :=
      fun _ sh => hact (.turn u.turn) sh
    exact .setOpened hact p hturn sh
  | step s =>
    cases s with
    | register content => exact .registerContent hact p content sh
    | release r => exact .releaseRegistration hact r sh
    | drop r =>
      show RegistrationsKept sh (Shell.letGo act (.registration r) sh)
      unfold Shell.letGo
      split
      · exact hsame sh
      · exact .releaseRegistration hact r sh
    | forget r => exact hsame sh
    | set revision => exact .setContent hact p (fun _ sh => hsame sh) sh
    | setOpened revision =>
      have hturn : ∀ opened sh, RegistrationsKept sh (revision.update opened sh).2 :=
        fun _ sh => hsame sh
      exact .setOpened hact p hturn sh
    | aside a => exact .of_registrations (a.same sh).registrations

/-! ### Where an update lands -/

namespace Shell

/-- The number of the visible entry of a panel, none for the base. -/
def panelOwner (sh : Shell α) (p : PanelId) : Option Nat :=
  sh.panels[p]?.bind Panel.visibleOwner

/-- The listeners of a panel are told of a change; those that leave the panel alone leave it as it
was changed. -/
structure ToldOf (p : PanelId) (act : Act α) (changed sh' : Shell α) : Prop where
  told : sh' = panelChanged act p changed
  left : LeavesPanel act p → SamePanel p changed sh'

/-- A change of a panel tells its listeners of that change. -/
theorem toldOf_panelChanged (p : PanelId) (act : Act α) (sh : Shell α) :
    ToldOf p act sh (panelChanged act p sh) where
  told := rfl
  left hact := by
    have honward : Onward (SamePanel (α := α) p) := ⟨.refl, .trans, .note⟩
    rw [panelChanged_eq]
    exact honward.callEach hact _ sh

variable (p : PanelId) (steps : Course (PanelMove α p) α)
  (value : Option String → Shell α → Option String) (act : Act α) (sh : Shell α)

/-- A set by an update that takes some steps before it gives the new content. -/
def setAfter : Shell α :=
  setContent act p
    (fun content sh =>
      let after := steps.run (PanelMove.conduct α p) sh
      (value content after, after)) sh

/-- A set leaves the panel as the steps of its update left it, but for the entry that it began with,
which holds the new content; and it does nothing and tells nobody if this entry was released.  Only
an entry that somebody had a registration of can be. -/
structure SetsItsEntry : Prop where
  base : sh.panelOwner p = none → ∃ pa, (steps.run (PanelMove.conduct α p) sh).panels[p]? = some pa ∧
    ToldOf p act
      ((steps.run (PanelMove.conduct α p) sh).modifyPanel p fun _ =>
        { pa with base := value (sh.panelContent p) (steps.run (PanelMove.conduct α p) sh) })
      (setAfter p steps value act sh)
  entry : ∀ k pa, sh.panelOwner p = some k →
    (steps.run (PanelMove.conduct α p) sh).panels[p]? = some pa → k ∈ pa.stack.map Prod.fst →
    ∃ front c back, pa.stack = front ++ (k, c) :: back ∧ k ∉ (front ++ back).map Prod.fst ∧
      ToldOf p act
        ((steps.run (PanelMove.conduct α p) sh).modifyPanel p fun _ =>
          { pa with stack := front ++
              (k, value (sh.panelContent p) (steps.run (PanelMove.conduct α p) sh)) :: back })
        (setAfter p steps value act sh)
  gone : ∀ k pa, sh.panelOwner p = some k →
    (steps.run (PanelMove.conduct α p) sh).panels[p]? = some pa → k ∉ pa.stack.map Prod.fst →
    setAfter p steps value act sh = steps.run (PanelMove.conduct α p) sh
  released : ∀ (r : RegistrationId) (reg : Registration) (pa : Panel),
    sh.registrations[r]? = some reg → sh.panelOwner p = some reg.number →
    (steps.run (PanelMove.conduct α p) sh).panels[p]? = some pa →
    (reg.number ∉ pa.stack.map Prod.fst ↔
      (steps.run (PanelMove.conduct α p) sh).isReleased r = true)
  unregistered : ∀ k pa, sh.panelOwner p = some k →
    (∀ (r : RegistrationId) (reg : Registration), sh.registrations[r]? = some reg →
      reg.number ≠ k) →
    (steps.run (PanelMove.conduct α p) sh).panels[p]? = some pa → k ∈ pa.stack.map Prod.fst

end Shell

/-- A content that is set on one of the entries replaces what this entry held. -/
theorem Panel.setEntry_split {pa : Panel} {k : Nat} {c : Option String}
    {front back : List (Nat × Option String)} (hstack : pa.stack = front ++ (k, c) :: back)
    (hk : k ∉ (front ++ back).map Prod.fst) (v : Option String) :
    pa.setEntry (some k) v = some { pa with stack := front ++ (k, v) :: back } := by
  have hother : ∀ entries : List (Nat × Option String), k ∉ entries.map Prod.fst →
      entries.map (fun e => if e.1 = k then (e.1, v) else e) = entries := by
    intro entries hentries
    refine (List.map_congr_left fun e he => ?_).trans (List.map_id entries)
    refine if_neg fun hek => hentries ?_
    rw [← hek]
    exact List.mem_map_of_mem he
  rw [List.map_append, List.mem_append, not_or] at hk
  have hregistered : pa.registered k = true := by simp [registered, hstack]
  simp only [setEntry, hregistered, if_true, hstack, List.map_append, List.map_cons,
    hother front hk.1, hother back hk.2]

namespace PanelFollows

variable {i : PanelFrame α}

/-- The owner of the panel is the one of the history; numbers of entries start at one. -/
theorem panelOwner (h : PanelFollows p i past sh) : sh.panelOwner p = past.owner.map (· + 1) := by
  obtain ⟨pa, hpa, -⟩ := h.exists_panel
  rw [Shell.panelOwner, hpa]
  exact h.visibleOwner hpa

/-- The entries of the panel are the live ones of the history, in order. -/
theorem stack_numbers (h : PanelFollows p i past sh) {pa : Panel} (hpa : sh.panels[p]? = some pa) :
    pa.stack.map Prod.fst = past.live.map (· + 1) := by
  obtain ⟨pa', hpa', hslot⟩ := h.exists_panel
  obtain rfl : pa = pa' := Option.some.inj (hpa.symm.trans hpa')
  show pa.slot.stack.map Prod.fst = _
  rw [hslot]
  simp [PanelHistory.panel]

/-- An entry stands in the panel while it is live. -/
theorem mem_stack_iff (h : PanelFollows p i past sh) {pa : Panel} (hpa : sh.panels[p]? = some pa)
    (n : Nat) : n + 1 ∈ pa.stack.map Prod.fst ↔ n ∈ past.live := by
  simp [h.stack_numbers hpa]

/-- The numbers of the entries are different, so that a number stands for one entry. -/
theorem exists_split (h : PanelFollows p i past sh) {pa : Panel} (hpa : sh.panels[p]? = some pa)
    {k : Nat} (hk : k ∈ pa.stack.map Prod.fst) :
    ∃ front c back, pa.stack = front ++ (k, c) :: back ∧ k ∉ (front ++ back).map Prod.fst := by
  obtain ⟨⟨k, c⟩, hmem, rfl⟩ := List.mem_map.1 hk
  obtain ⟨front, back, hsplit⟩ := List.append_of_mem hmem
  have hnodup : (pa.stack.map Prod.fst).Nodup := by
    rw [h.stack_numbers hpa, List.Nodup, List.pairwise_map]
    exact past.live_increasing.imp fun hlt he => Nat.ne_of_lt hlt (Nat.succ.inj he)
  rw [hsplit, List.map_append, List.map_cons, List.nodup_middle, List.nodup_cons,
    ← List.map_append] at hnodup
  exact ⟨front, c, back, hsplit, hnodup.1⟩

/-- A registration is released if and only if its entry is not there any more. -/
theorem isReleased_iff (h : PanelFollows p i past sh) {pa : Panel} (hpa : sh.panels[p]? = some pa)
    {r : RegistrationId} {reg : Registration} (hr : sh.registrations[r]? = some reg) :
    reg.number ∉ pa.stack.map Prod.fst ↔ sh.isReleased r = true := by
  have hreleased : sh.isReleased r = reg.released := by simp only [Shell.isReleased, hr]
  obtain ⟨n, -, rfl⟩ := h.registration hr
  rw [hreleased, h.mem_stack_iff hpa, decide_eq_true_iff]

/-- A live entry of which nobody has a registration may be taken for a pending one. -/
theorem pin (h : PanelFollows p i past sh) {n : Nat} (hn : n ∈ past.live)
    (hnew : ∀ (r : RegistrationId) (reg : Registration), sh.registrations[r]? = some reg →
      reg.number ≠ n + 1) :
    ∃ pending, n ∈ pending ∧ PanelFollows p ⟨pending, i.earlier⟩ past sh := by
  by_cases hmem : n ∈ i.pending
  · exact ⟨i.pending, hmem, h⟩
  · refine ⟨n :: i.pending, List.mem_cons_self, h.toSameReferences, ?_, h.released, h.alive,
      h.unreferenced⟩
    refine ⟨h.panel, h.registration, h.distinct, List.nodup_cons.2 ⟨hmem, h.pending_nodup⟩,
      fun a ha => ?_, fun a ha r reg hr => ?_⟩
    · rcases List.mem_cons.1 ha with rfl | ha
      · exact hn
      · exact h.pending_live a ha
    · rcases List.mem_cons.1 ha with rfl | ha
      · exact hnew r reg hr
      · exact h.pending_new a ha hr

/-- Where the history describes the panel, an update lands on the entry that owned the content when
it began, or nowhere. -/
theorem setsItsEntry (h : PanelFollows p i past sh) (steps : Course (PanelMove α p) α)
    (value : Option String → Shell α → Option String) (act : Shell.Act α) :
    sh.SetsItsEntry p steps value act := by
  have hafter := (yields_moves steps h).last
  obtain ⟨before, hbefore, -⟩ := h.exists_panel
  have hcontent : sh.panelContent p = before.visible := by
    rw [Shell.panelContent, hbefore]
    rfl
  have howner : sh.panelOwner p = before.visibleOwner := by
    rw [Shell.panelOwner, hbefore]
    rfl
  -- a set finds the entry that it began with among those that the steps left
  have hset : ∀ pa, (steps.run (PanelMove.conduct α p) sh).panels[p]? = some pa →
      Shell.setAfter p steps value act sh =
        (pa.setEntry (sh.panelOwner p)
          (value (sh.panelContent p) (steps.run (PanelMove.conduct α p) sh))).elim
          (steps.run (PanelMove.conduct α p) sh) fun changed => Shell.panelChanged act p
            ((steps.run (PanelMove.conduct α p) sh).modifyPanel p fun _ => changed) := by
    intro pa hpa
    rw [howner, hcontent]
    rcases hentry : pa.setEntry before.visibleOwner
        (value before.visible (steps.run (PanelMove.conduct α p) sh)) with - | changed <;>
      simp only [Shell.setAfter, Shell.setContent, hbefore, hpa, Option.bind_some, hentry,
        Option.elim_none, Option.elim_some]
  refine ⟨fun ho => ?base, fun k pa ho hpa hk => ?entry, fun k pa ho hpa hk => ?gone,
    fun r reg pa hr ho hpa => ?released, fun k pa ho hnew hpa => ?unregistered⟩
  case base =>
    obtain ⟨pa, hpa, -⟩ := hafter.exists_panel
    refine ⟨pa, hpa, ?_⟩
    rw [hset pa hpa, ho]
    exact Shell.toldOf_panelChanged p act _
  case entry =>
    obtain ⟨front, c, back, hsplit, hunique⟩ := hafter.exists_split hpa hk
    refine ⟨front, c, back, hsplit, hunique, ?_⟩
    rw [hset pa hpa, ho, Panel.setEntry_split hsplit hunique]
    exact Shell.toldOf_panelChanged p act _
  case gone =>
    have hregistered : pa.registered k = false := by
      rw [Panel.registered, List.any_eq_false]
      rintro e he hek
      rw [← beq_iff_eq.1 hek] at hk
      exact hk (List.mem_map_of_mem he)
    rw [hset pa hpa, ho]
    simp only [Panel.setEntry, hregistered, Bool.false_eq_true, if_false, Option.elim_none]
  case released =>
    have hkept : RegistrationsKept sh (steps.run (PanelMove.conduct α p) sh) :=
      RegistrationsKept.onward.run (fun m _ hact sh => m.registrationsKept hact sh) steps sh
    obtain ⟨reg', hreg', hnumber⟩ := hkept.exists_registration hr
    rw [← hnumber]
    exact hafter.isReleased_iff hpa hreg'
  case unregistered =>
    rw [h.panelOwner] at ho
    obtain ⟨n, hn, rfl⟩ := Option.map_eq_some_iff.1 ho
    -- the entry is pending while the steps are taken
    obtain ⟨pending, hmem, hpinned⟩ := h.pin (List.mem_of_getLast? hn) hnew
    have hlast := (yields_moves steps hpinned).last
    exact (hlast.mem_stack_iff hpa n).2 (hlast.pending_live n hmem)

end PanelFollows

/-- At every station of every run of moves on a new panel, whatever moves an update takes before it
gives the new content, and whatever the listeners do: a set leaves the panel as these moves left it,
but for the entry that was visible when the set began, which holds the new content; if this entry
was released, the set changes nothing and tells nobody. -/
theorem set_lands_on_its_entry {start : Shell α} (hs : start.NewPanel p)
    (course : Course (PanelMove α p) α) :
    ∀ st ∈ course.stations (PanelMove.conduct α p) [] start,
      ∀ (steps : Course (PanelMove α p) α) (value : Option String → Shell α → Option String)
        (act : Shell.Act α), st.shell.SetsItsEntry p steps value act := by
  intro st hst steps value act
  obtain ⟨i, hi⟩ := (yields_moves course hs.follows).all st hst
  exact hi.setsItsEntry steps value act

/-- A draft is registered. -/
def drafting : Course (PanelMove Unit 0) Unit :=
  .step (.step (.register (some "draft"))) (fun _ _ => .done) fun _ => .done

/-- Help is registered on top. -/
def covering : Course (PanelMove Unit 0) Unit :=
  .step (.step (.register (some "help"))) (fun _ _ => .done) fun _ => .done

/-- An update of the draft that covers it with help before it gives the new content. -/
theorem set_lands_on_its_entry_covering :
    overlaidStart.NewPanel 0 ∧
      (drafting.run (PanelMove.conduct Unit 0) overlaidStart).SetsItsEntry 0 covering
        (fun _ _ => some "final") (fun _ sh => sh) ∧
      (Shell.setAfter 0 covering (fun _ _ => some "final") (fun _ sh => sh)
        (drafting.run (PanelMove.conduct Unit 0) overlaidStart)).panels[0]?.map Panel.stack =
          some [(1, some "final"), (2, some "help")] := by
  have hstart : overlaidStart.NewPanel 0 :=
    ⟨rfl, rfl, rfl, fun r => by simp [overlaidStart, Shell.referenced, Shell.empty]⟩
  have hlast : (drafting.stations (PanelMove.conduct Unit 0) [] overlaidStart).head? =
      some ⟨[.register (some "draft")], drafting.run (PanelMove.conduct Unit 0) overlaidStart⟩ := rfl
  exact ⟨hstart, set_lands_on_its_entry hstart drafting _ (List.mem_of_head? hlast) covering _ _, rfl⟩

end AppShell
