/-
AppShell/Proofs/Storage/Twins.lean

Two runs that differ in flags and closes only.

Two courses are alike if they take the same steps, but for the flags of the stores
that they make, and but for closes that one of them makes and the other does not,
wherever these stand and also within callbacks (`Course.Alike`).  What they do next
may depend on the shell, as long as it depends on what is left of it without flags
and closes.

Two pieces of runs are twins if they end alike and every station of the first is
like a station of the second (`Twins`).  Each operation keeps this as long as its
callbacks do (`TwinActs`): at no moment does it look at a flag or at what was
closed.  The main statement is `Course.Alike.twins`: so do alike courses.
-/
import AppShell.Proofs.Storage.Ledger
import AppShell.Proofs.Storage.Plain
import Mathlib.Data.List.Basic

namespace AppShell

variable {N α : Type}

open Shell (Alike)

/-- Pieces of two runs that end alike, where each station of the first is like one of the second. -/
structure Twins (out out' : Stations N α) (sh sh' : Shell α) : Prop where
  last : Alike sh sh'
  all : ∀ st ∈ out, ∃ st' ∈ out', Alike st.shell st'.shell

/-- Callbacks of two runs that make twins of shells that are alike. -/
def TwinActs (act act' : Shell.Act α) (tr tr' : Answers N α) : Prop :=
  ∀ call past past' sh sh', Alike sh sh' →
    Twins (tr call past sh) (tr' call past' sh') (act call sh) (act' call sh')

namespace Twins

variable {out out' more more' : Stations N α} {past past' : List N} {sh sh' next next' : Shell α}

theorem refl (h : Alike sh sh') : Twins ([] : Stations N α) [] sh sh' :=
  ⟨h, nofun⟩

/-- Twins one after the other: the stations of the second pieces come behind those of the first. -/
theorem trans (h : Twins out out' sh sh') (h' : Twins more more' next next') :
    Twins (more ++ out) (more' ++ out') next next' where
  last := h'.last
  all st hst := by
    rcases List.mem_append.1 hst with hst | hst
    · obtain ⟨st', hst', halike⟩ := h'.all st hst
      exact ⟨st', List.mem_append_left _ hst', halike⟩
    · obtain ⟨st', hst', halike⟩ := h.all st hst
      exact ⟨st', List.mem_append_right _ hst', halike⟩

/-- A station where nothing is called. -/
theorem single (past past' : List N) (h : Alike sh sh') : Twins [⟨past, sh⟩] [⟨past', sh'⟩] sh sh' where
  last := h
  all st hst := by
    obtain rfl := List.mem_singleton.1 hst
    exact ⟨_, List.mem_singleton_self _, h⟩

/-- Stations at the beginning. -/
theorem concat (past past' : List N) (h : Alike sh sh') (h' : Twins out out' next next') :
    Twins (out ++ [⟨past, sh⟩]) (out' ++ [⟨past', sh'⟩]) next next' :=
  (single past past' h).trans h'

/-- What is left to do after the last station. -/
theorem settle (h : Twins out out' sh sh') (hs : Alike sh sh' → Alike next next') :
    Twins out out' next next' :=
  ⟨hs h.last, h.all⟩

/-- Things done one after the other are twins if each of them is. -/
theorem fold {β : Type} {f f' : Shell α → β → Shell α}
    {stations stations' : β → List N → Shell α → Stations N α}
    (hf : ∀ b past past' sh sh', Alike sh sh' →
      Twins (stations b past sh) (stations' b past' sh') (f sh b) (f' sh' b))
    (bs : List β) (h : Alike sh sh') :
    Twins (foldStations f stations bs past sh) (foldStations f' stations' bs past' sh')
      (bs.foldl f sh) (bs.foldl f' sh') := by
  induction bs generalizing past past' sh sh' with
  | nil => exact refl h
  | cons b bs ih =>
    have hb := hf b past past' sh sh' h
    exact hb.trans (ih hb.last)

/-! ### Operations with callbacks -/

section Operations

variable {act act' : Shell.Act α} {tr tr' : Answers N α} (hact : TwinActs act act' tr tr')
include hact

/-- A listener is told the same in both runs, and its callback makes twins of what follows. -/
theorem deliver (l : KeyListener) (value : Option String) (h : Alike sh sh') :
    Twins (Shell.deliverStations tr l value past sh) (Shell.deliverStations tr' l value past' sh')
      (Shell.deliver act l value sh) (Shell.deliver act' l value sh') := by
  rcases e : l.report with label | label | i
  · simp only [Shell.deliverStations, Shell.deliver, e]
    exact hact _ _ _ _ _ (h.note _)
  · simp only [Shell.deliverStations, Shell.deliver, e]
    exact hact _ _ _ _ _ (h.note _)
  · simp only [Shell.deliverStations, Shell.deliver, e]
    exact refl (h.of_plain (f := fun sh => sh.setSignal i (Preferences.decodeOrDefault value))
      fun _ => rfl)

/-- The listeners of a source read the same in both runs, one after the other. -/
theorem tell (source : StoreSource) (ls : List KeyListener) (h : Alike sh sh') :
    Twins (Shell.tellStations act tr source ls past sh)
      (Shell.tellStations act' tr' source ls past' sh')
      (Shell.tell act source ls sh) (Shell.tell act' source ls sh') := by
  refine fold (fun l past past' sh sh' h => ?_) ls h
  -- both listeners are told the same, as the reads look at no flag
  have hread := h.read_snd source l.key l.level
  show Twins (Shell.deliverStations tr l (sh.read source l.key l.level).1 past _)
    (Shell.deliverStations tr' l (sh'.read source l.key l.level).1 past' _)
    (Shell.deliver act l (sh.read source l.key l.level).1 _)
    (Shell.deliver act' l (sh'.read source l.key l.level).1 _)
  rw [h.read_fst source l.key l.level]
  exact deliver hact l _ hread

/-- A context passes an event on in both runs or in neither, as it is alive in both or in
neither. -/
theorem relay (c : ContextId) (e : StoreEvent) (h : Alike sh sh') :
    Twins (Shell.relayStations act tr c e past sh) (Shell.relayStations act' tr' c e past' sh')
      (Shell.relay act c e sh) (Shell.relay act' c e sh') := by
  have hcontexts : sh.contexts = sh'.contexts := h.look fun _ => rfl
  have halive : sh.contextAlive c = sh'.contextAlive c :=
    h.look (f := fun sh => sh.contextAlive c) fun _ => rfl
  rcases ec : sh'.contexts[c]? with - | ct
  · simp only [Shell.relayStations, Shell.relay, hcontexts, ec]
    exact refl h
  · simp only [Shell.relayStations, Shell.relay, hcontexts, ec, halive]
    split
    · -- the context is held in both while its listeners are told
      have hheld : Alike (sh.hold (.context c)) (sh'.hold (.context c)) :=
        h.of_plain (f := fun sh => sh.hold (.context c)) fun _ => rfl
      refine (tell hact _ _ hheld).settle fun htold => ?_
      exact htold.of_plain (f := Shell.unhold) fun _ => rfl
    · exact refl h

/-- An observer hears the same event in both runs. -/
theorem observe (e : StoreEvent) (o : StoreObserver) (h : Alike sh sh') :
    Twins (Shell.observeStations act tr e past sh o) (Shell.observeStations act' tr' e past' sh' o)
      (Shell.observe act e sh o) (Shell.observe act' e sh' o) := by
  cases o with
  | watch label callback =>
    cases e with
    | written key => exact hact _ _ _ _ _ (h.note (.written label key))
    | consentChanged levels => exact hact _ _ _ _ _ (h.note (.consentChanged label levels))
  | relay c => exact relay hact c e h

/-- A store announces an event to the listeners it concerns and then to its observers, the same in
both runs whatever its flags say and whether it was closed. -/
theorem announce (s : StoreId) (e : StoreEvent) (h : Alike sh sh') :
    Twins (Shell.announceStations act tr s e past sh) (Shell.announceStations act' tr' s e past' sh')
      (Shell.announce act s e sh) (Shell.announce act' s e sh') := by
  rcases h.stores s with ⟨hs, hs'⟩ | ⟨st, st', hs, hs', -, hkeyed, -⟩
  · simp only [Shell.announceStations, Shell.announce, hs, hs']
    exact refl h
  · have htold : Twins (Shell.tellStations act tr (.store s) _ past sh)
        (Shell.tellStations act' tr' (.store s) _ past' sh') _ _ :=
      tell hact (.store s) (st'.keyed.snapshot.filter e.concerns) h
    simp only [Shell.announceStations, Shell.announce, hs, hs', hkeyed]
    refine htold.trans ?_
    -- the observers are those after the listeners were told, the same in both
    rcases htold.last.stores s with ⟨ht, ht'⟩ | ⟨now, now', ht, ht', -, -, hobservers⟩
    · simp only [Shell.observersStations, Shell.tellObservers, ht, ht']
      exact refl htold.last
    · simp only [Shell.observersStations, Shell.tellObservers, ht, ht', hobservers]
      refine fold (fun o past past' sh sh' h => ?_) _ htold.last
      exact observe hact e o h

/-- A write is admitted by the same store in both runs, or by none. -/
theorem changeBinding (b : Binding) (value : Option String) (h : Alike sh sh') :
    Twins (Shell.bindingStations act tr b value past sh)
      (Shell.bindingStations act' tr' b value past' sh')
      (Shell.changeBinding act b value sh) (Shell.changeBinding act' b value sh') := by
  have hadmitted : sh.admitted b = sh'.admitted b :=
    h.look (f := fun sh => sh.admitted b) fun sh => Shell.admitted_plain sh b
  rw [Shell.changeBinding_eq, Shell.changeBinding_eq, Shell.bindingStations, Shell.bindingStations]
  rcases ha : sh'.admitted b with - | s
  · simp only [Shell.put, hadmitted, ha]
    exact single past past' h
  · have hmedium : sh.mediumOf s = sh'.mediumOf s :=
      h.look (f := fun sh => sh.mediumOf s) fun sh => Shell.mediumOf_plain sh s
    have hput : Alike (sh.putEntry (sh'.mediumOf s) b.key value)
        (sh'.putEntry (sh'.mediumOf s) b.key value) :=
      h.of_plain (f := fun sh => sh.putEntry (sh'.mediumOf s) b.key value) fun sh =>
        Shell.plain_putEntry sh _ _ _
    simp only [Shell.put, hadmitted, ha, hmedium]
    exact (announce hact s _ hput).concat past past' hput

/-- New levels of consent are announced in both runs or in neither: whether they changed depends on
no flag. -/
theorem setConsent (s : StoreId) (levels : List ConsentLevel) (h : Alike sh sh') :
    Twins (Shell.consentStations act tr s levels past sh)
      (Shell.consentStations act' tr' s levels past' sh')
      (Shell.setConsent act s levels sh) (Shell.setConsent act' s levels sh') := by
  rcases h.stores s with ⟨hs, hs'⟩ | ⟨st, st', hs, hs', hconsent, -, -⟩
  · simp only [Shell.consentStations, Shell.setConsent, hs, hs']
    exact refl h
  · have hgrant : Alike (sh.grant s levels) (sh'.grant s levels) :=
      h.of_plain (f := fun sh => sh.grant s levels) fun sh =>
        Shell.plain_modify_stores sh s fun _ => rfl
    simp only [Shell.consentStations, Shell.setConsent, hs, hs', hconsent]
    split
    · exact single past past' hgrant
    · exact (announce hact s _ hgrant).concat past past' hgrant

/-- A context that takes another store tells the same listeners in both runs, and closes nothing. -/
theorem replaceStore (c : ContextId) (s : StoreId) (h : Alike sh sh') :
    Twins (Shell.installStations act tr c s past sh) (Shell.installStations act' tr' c s past' sh')
      (Shell.replaceStore act c s sh).2 (Shell.replaceStore act' c s sh').2 := by
  have hcontexts : sh.contexts = sh'.contexts := h.look fun _ => rfl
  rcases ec' : sh'.contexts[c]? with - | ct
  · simp only [Shell.installStations, Shell.replaceStore, hcontexts, ec']
    exact refl h
  · have ec : sh.contexts[c]? = some ct := hcontexts ▸ ec'
    have hinstall : Alike (sh.install c ct s) (sh'.install c ct s) :=
      h.of_plain (f := fun sh => sh.install c ct s) fun sh => Shell.plain_install sh c ct s
    rw [Shell.replaceStore_eq act ec, Shell.replaceStore_eq act' ec']
    simp only [Shell.installStations, ec, ec']
    exact (tell hact _ _ hinstall).concat past past' hinstall

end Operations

end Twins

/-! ### Steps -/

namespace ClosingStep

/-- A step closes a store or a medium. -/
def IsClose : ClosingStep → Prop
  | .storage (.close _) | .closeMedium _ => True
  | _ => False

/-- A step keeps shells alike as long as its callbacks do, whatever the flags of a new store are. -/
theorem twins {act act' : Shell.Act α} {tr tr' : Answers ClosingStep α}
    (hact : TwinActs act act' tr tr') {step step' : StorageStep} (hsteps : step.plain = step'.plain)
    (past past' : Ledger) {sh sh' : Shell α} (h : sh.Alike sh') :
    Twins (stations act tr past sh (.storage step)) (stations act' tr' past' sh' (.storage step'))
      (step.performWith act sh) (step'.performWith act' sh') := by
  rcases StorageStep.eq_or_newStore hsteps with rfl | ⟨m, config, config', rfl, rfl⟩
  · cases step with
    | write b value => exact .changeBinding hact b (some value) h
    | remove b => exact .changeBinding hact b none h
    | setConsent s levels => exact .setConsent hact s levels h
    | replace c s => exact .replaceStore hact c s h
    | _ => exact .single _ _ (h.perform (by trivial))
  · exact .single _ _ (h.addStore m config config')

end ClosingStep

/-! ### Courses -/

/-- From a shell that is alike, two courses take the same steps, but for the flags of new stores and
but for closes.  This goes for the courses that answer the calls of a step as well. -/
inductive Course.Alike : Shell α → Course ClosingStep α → Course ClosingStep α → Prop where
  | done (p : Shell α) : Alike p .done .done
  | step {p : Shell α} {step step' : StorageStep}
      {answer answer' : Call → Shell α → Course ClosingStep α}
      {next next' : Shell α → Course ClosingStep α} (hsteps : step.plain = step'.plain)
      (hanswer : ∀ call (sh sh' : Shell α), sh.Alike sh' →
        Alike sh.plain (answer call sh) (answer' call sh'))
      (hnext : ∀ sh sh' : Shell α, sh.Alike sh' → Alike sh.plain (next sh) (next' sh')) :
      Alike p (.step (.storage step) answer next) (.step (.storage step') answer' next')
  | closeFirst {p : Shell α} {close : ClosingStep}
      {answer : Call → Shell α → Course ClosingStep α} {next : Shell α → Course ClosingStep α}
      {course : Course ClosingStep α} (hclose : close.IsClose)
      (hnext : ∀ sh : Shell α, sh.plain = p → Alike p (next sh) course) :
      Alike p (.step close answer next) course
  | closeSecond {p : Shell α} {close : ClosingStep}
      {answer : Call → Shell α → Course ClosingStep α} {next : Shell α → Course ClosingStep α}
      {course : Course ClosingStep α} (hclose : close.IsClose)
      (hnext : ∀ sh : Shell α, sh.plain = p → Alike p course (next sh)) :
      Alike p course (.step close answer next)

/-- A run stops at its beginning. -/
theorem Course.mem_stations {S : Type} (c : Conduct S N α) (course : Course S α) (past : List N)
    (sh : Shell α) : ⟨past, sh⟩ ∈ course.stations c past sh := by
  cases course with
  | done => exact List.mem_singleton_self _
  | step s answer next =>
    exact List.mem_append_right _ (List.mem_append_right _ (List.mem_singleton_self _))

/-- What comes after a close begins one station later. -/
theorem Course.stations_close {close : ClosingStep} (hclose : close.IsClose)
    (answer : Call → Shell α → Course ClosingStep α) (next : Shell α → Course ClosingStep α)
    (past : Ledger) (sh : Shell α) :
    ∃ sh' : Shell α, sh'.plain = sh.plain ∧
      (Course.step close answer next).run (ClosingStep.conduct α) sh =
        (next sh').run (ClosingStep.conduct α) sh' ∧
      (Course.step close answer next).stations (ClosingStep.conduct α) past sh =
        (next sh').stations (ClosingStep.conduct α) (close :: past) sh' ++
          [⟨close :: past, sh'⟩, ⟨past, sh⟩] := by
  rcases close with step | m
  · cases step with
    | close s => exact ⟨sh.closeStore s, Shell.plain_closeStore sh s, rfl, rfl⟩
    | _ => exact hclose.elim
  · exact ⟨sh.mediumClose m, Shell.plain_mediumClose sh m, rfl, rfl⟩

namespace Course.Alike

variable {p sh sh' : Shell α} {course course' : Course ClosingStep α}

/-- Being alike goes both ways. -/
theorem symm (h : Alike p course course') : Alike p course' course := by
  induction h with
  | done p => exact .done p
  | step hsteps _ _ ihanswer ihnext =>
    refine .step hsteps.symm (fun call sh sh' h => ?_) fun sh sh' h => ?_
    · rw [h]
      exact ihanswer call sh' sh h.symm
    · rw [h]
      exact ihnext sh' sh h.symm
  | closeFirst hclose _ ih => exact .closeSecond hclose ih
  | closeSecond hclose _ ih => exact .closeFirst hclose ih

/-- Alike courses are twins: flags and closes make no difference to anything else. -/
theorem twins (h : Alike p course course') (past past' : Ledger) (hsh : sh.plain = p)
    (hsh' : sh'.plain = p) :
    Twins (course.stations (ClosingStep.conduct α) past sh)
      (course'.stations (ClosingStep.conduct α) past' sh')
      (course.run (ClosingStep.conduct α) sh) (course'.run (ClosingStep.conduct α) sh') := by
  induction h generalizing past past' sh sh' with
  | done p => exact .single past past' (hsh.trans hsh'.symm)
  | @step p step step' answer answer' next next' hsteps _ _ ihanswer ihnext =>
    -- the courses that answer the calls are parts of the trees, so that they are twins
    have hact : TwinActs (fun call sh => (answer call sh).run (ClosingStep.conduct α) sh)
        (fun call sh => (answer' call sh).run (ClosingStep.conduct α) sh)
        (fun call past sh => (answer call sh).stations (ClosingStep.conduct α) past sh)
        (fun call past sh => (answer' call sh).stations (ClosingStep.conduct α) past sh) := by
      intro call past past' sh sh' h
      exact ihanswer call sh sh' h past past' rfl h.symm
    have halike : sh.Alike sh' := hsh.trans hsh'.symm
    have hdone := (ClosingStep.twins hact hsteps past past' halike).concat past past' halike
    exact hdone.trans (ihnext _ _ hdone.last _ _ rfl hdone.last.symm)
  | @closeFirst p close answer next course hclose _ ih =>
    obtain ⟨closed, hplain, hrun, hstations⟩ := stations_close hclose answer next past sh
    have hrest := ih closed (hplain.trans hsh) (close :: past) past' (hplain.trans hsh) hsh'
    -- the stations of the close are like the one at which the other course begins
    have hbegin : ∀ sh₀ : Shell α, sh₀.plain = p →
        ∃ st' ∈ course.stations (ClosingStep.conduct α) past' sh', sh₀.Alike st'.shell :=
      fun sh₀ h₀ => ⟨_, course.mem_stations _ past' sh', h₀.trans hsh'.symm⟩
    rw [hrun, hstations]
    refine ⟨hrest.last, fun st hst => ?_⟩
    rcases List.mem_append.1 hst with hst | hst
    · exact hrest.all st hst
    · rcases List.mem_pair.1 hst with rfl | rfl
      · exact hbegin closed (hplain.trans hsh)
      · exact hbegin sh hsh
  | @closeSecond p close answer next course hclose _ ih =>
    obtain ⟨closed, hplain, hrun, hstations⟩ := stations_close hclose answer next past' sh'
    have hrest := ih closed (hplain.trans hsh') past (close :: past') hsh (hplain.trans hsh')
    rw [hrun, hstations]
    refine ⟨hrest.last, fun st hst => ?_⟩
    obtain ⟨st', hst', halike⟩ := hrest.all st hst
    exact ⟨st', List.mem_append_left _ hst', halike⟩

end Course.Alike

end AppShell
