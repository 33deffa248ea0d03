/-
AppShell/Proofs/Course.lean

Courses of steps whose callbacks take steps again.

A course is a finite tree of steps on a shell.  What is done next may depend on
the shell, and so may what a callback does: each step comes with courses that
answer the calls it makes, to any depth.  How a step is performed, and what is
noted of it, is left to a `Conduct`; a station of a run is the shell at a moment
together with all that was noted before it, and a run stops at one before each
step, whenever a callback is called, and at its end.

The main statement is `Course.yields`: what every step keeps as long as the
callbacks keep it holds at every station of every run.
-/
import AppShell.Shell.Basic

namespace AppShell

variable {S N ι α : Type}

/-- A finite tree of steps, with the courses that answer the calls of each step. -/
inductive Course (S α : Type) where
  | done
  | step (s : S) (answer : Call → Shell α → Course S α) (next : Shell α → Course S α)

/-- The shell at a moment of a run, with what was noted until then, the newest first. -/
structure Station (N α : Type) where
  past : List N
  shell : Shell α

/-- The stations of a run, the newest first. -/
abbrev Stations (N α : Type) := List (Station N α)

/-- What is noted at the last of some stations, or was noted before them if there are none. -/
def Stations.past (before : List N) : Stations N α → List N
  | [] => before
  | st :: _ => st.past

/-- The stations at which a call is answered. -/
abbrev Answers (N α : Type) := Call → List N → Shell α → Stations N α

/-- How steps are performed, and the stations that they pass before they are done. -/
structure Conduct (S N α : Type) where
  perform : S → Shell.Act α → Shell α → Shell α
  stations : S → Shell.Act α → Answers N α → List N → Shell α → Stations N α

namespace Course

/-- The shell after a course. -/
def run (c : Conduct S N α) : Course S α → Shell α → Shell α
  | .done, sh => sh
  | .step s answer next, sh =>
    let sh := c.perform s (fun call sh => run c (answer call sh) sh) sh
    run c (next sh) sh

/-- The stations of a course. -/
def stations (c : Conduct S N α) : Course S α → List N → Shell α → Stations N α
  | .done, past, sh => [⟨past, sh⟩]
  | .step s answer next, past, sh =>
    let act : Shell.Act α := fun call sh => (answer call sh).run c sh
    let during := c.stations s act (fun call past sh => stations c (answer call sh) past sh) past sh
    let sh' := c.perform s act sh
    stations c (next sh') (during.past past) sh' ++ (during ++ [⟨past, sh⟩])

/-- The last station of a run is its end. -/
theorem head?_stations (c : Conduct S N α) (course : Course S α) (past : List N) (sh : Shell α) :
    (course.stations c past sh).head?.map Station.shell = some (course.run c sh) := by
  induction course generalizing past sh with
  | done => rfl
  | step s answer next _ ih =>
    simp only [stations, run, List.head?_append, Option.map_or, ih, Option.some_or]

end Course

/-! ### Listeners -/

/-- The stations while things are done one after the other, each from the shell that the one before
led to. -/
def foldStations {β : Type} (f : Shell α → β → Shell α)
    (stations : β → List N → Shell α → Stations N α) : List β → List N → Shell α → Stations N α
  | [], _, _ => []
  | b :: bs, past, sh =>
    let during := stations b past sh
    foldStations f stations bs (during.past past) (f sh b) ++ during

namespace Shell

variable (act : Act α)

/-- Calls listeners one after the other; what each is told is recorded before its callback runs. -/
def callEach (told : List (CallbackId × Event)) (sh : Shell α) : Shell α :=
  told.foldl (fun sh l => act (.turn l.1) (sh.note l.2)) sh

/-- The stations while listeners are called. -/
def callStations (tr : Answers N α) (told : List (CallbackId × Event)) (past : List N)
    (sh : Shell α) : Stations N α :=
  foldStations (fun sh l => act (.turn l.1) (sh.note l.2))
    (fun l past sh => tr (.turn l.1) past (sh.note l.2)) told past sh

/-- Callbacks at which a run does not stop. -/
@[simp] theorem callStations_nil (told : List (CallbackId × Event)) (past : List N)
    (sh : Shell α) : callStations act (fun _ _ _ => []) told past sh = [] := by
  induction told generalizing sh with
  | nil => rfl
  | cons l ls ih => exact (List.append_nil _).trans (ih _)

/-- The stations from a change on, while listeners are told of it. -/
def changeStations (tr : Answers N α) (told : List (CallbackId × Event)) (past : List N)
    (sh : Shell α) : Stations N α :=
  callStations act tr told past sh ++ [⟨past, sh⟩]

end Shell

/-! ### What holds at every station -/

theorem Stations.past_append (before : List N) (out out' : Stations N α) :
    Stations.past before (out' ++ out) = Stations.past (Stations.past before out) out' := by
  cases out' <;> rfl

variable {Inv : ι → List N → Shell α → Prop} {i : ι} {past : List N} {sh sh' : Shell α}
  {out out' : Stations N α} {act : Shell.Act α} {tr : Answers N α}

/-- A property holds at the end of some stations, and at each of them in some case of it. -/
structure Yields (Inv : ι → List N → Shell α → Prop) (i : ι) (past : List N)
    (out : Stations N α) (sh : Shell α) : Prop where
  last : Inv i (out.past past) sh
  all : ∀ st ∈ out, ∃ j, Inv j st.past st.shell

/-- Callbacks keep a property. -/
def Keeps (Inv : ι → List N → Shell α → Prop) (act : Shell.Act α) (tr : Answers N α) : Prop :=
  ∀ call i past sh, Inv i past sh → Yields Inv i past (tr call past sh) (act call sh)

namespace Yields

theorem refl (h : Inv i past sh) : Yields Inv i past [] sh :=
  ⟨h, nofun⟩

theorem trans {j : ι} (h : Yields Inv i past out sh) (h' : Yields Inv j (out.past past) out' sh') :
    Yields Inv j past (out' ++ out) sh' where
  last := by
    rw [Stations.past_append]
    exact h'.last
  all st hst := (List.mem_append.1 hst).elim (h'.all st) (h.all st)

/-- A station at the beginning. -/
theorem concat {j : ι} (before : List N) (h : Inv i past sh) (h' : Yields Inv j past out sh') :
    Yields Inv j before (out ++ [⟨past, sh⟩]) sh' := by
  have hfirst : Yields Inv i before [⟨past, sh⟩] sh :=
    ⟨h, fun _ hst => ⟨i, List.mem_singleton.1 hst ▸ h⟩⟩
  exact hfirst.trans h'

/-- What is left to do after the last station. -/
theorem settle {j : ι} (h : Yields Inv i past out sh)
    (hs : ∀ past, Inv i past sh → Inv j past sh') : Yields Inv j past out sh' :=
  ⟨hs _ h.last, h.all⟩

/-- A station at the end, at which some things are noted. -/
theorem noted {j : ι} (h : Yields Inv i past out sh) (ns : List N)
    (hs : Inv j (ns ++ out.past past) sh') :
    Yields Inv j past (⟨ns ++ out.past past, sh'⟩ :: out) sh' where
  last := hs
  all st hst := by
    rcases List.mem_cons.1 hst with rfl | hst
    · exact ⟨j, hs⟩
    · exact h.all st hst

/-- A station at the end, at which something is noted. -/
theorem cons {j : ι} (h : Yields Inv i past out sh) {n : N}
    (hs : Inv j (n :: out.past past) sh') :
    Yields Inv j past (⟨n :: out.past past, sh'⟩ :: out) sh' :=
  h.noted [n] hs

/-- What holds while things are done one after the other may depend on those that are left. -/
theorem foldAlong {β : Type} {f : Shell α → β → Shell α}
    {stations : β → List N → Shell α → Stations N α} {I : List β → ι}
    {bs : List β}
    (hf : ∀ b ∈ bs, ∀ rest past sh, Inv (I (b :: rest)) past sh →
      Yields Inv (I rest) past (stations b past sh) (f sh b))
    (h : Inv (I bs) past sh) :
    Yields Inv (I []) past (foldStations f stations bs past sh) (bs.foldl f sh) := by
  induction bs generalizing past sh with
  | nil => exact refl h
  | cons b bs ih =>
    have hb := hf b List.mem_cons_self bs past sh h
    exact hb.trans (ih (fun b' hb' => hf b' (List.mem_cons_of_mem b hb')) hb.last)

/-- Things done one after the other keep what each of them keeps. -/
theorem fold {β : Type} {f : Shell α → β → Shell α}
    {stations : β → List N → Shell α → Stations N α}
    (hf : ∀ b past sh, Inv i past sh → Yields Inv i past (stations b past sh) (f sh b))
    (bs : List β) (h : Inv i past sh) :
    Yields Inv i past (foldStations f stations bs past sh) (bs.foldl f sh) :=
  foldAlong (I := fun _ => i) (fun b _ _ => hf b) h

/-- A change keeps what holds right after it, if callbacks and notes keep it. -/
theorem change (hact : Keeps Inv act tr)
    (hnote : ∀ i past sh e, Inv i past sh → Inv i past (Shell.note sh e))
    (told : List (CallbackId × Event)) (before : List N) (h : Inv i past sh) :
    Yields Inv i before (Shell.changeStations act tr told past sh) (Shell.callEach act told sh) :=
  concat before h
    (fold (fun l past sh h => hact (.turn l.1) i past (sh.note l.2) (hnote i past sh l.2 h)) told h)

end Yields

/-- What every step keeps as long as callbacks do holds at every station of a course. -/
theorem Course.yields {c : Conduct S N α}
    (hstep : ∀ s act tr, Keeps Inv act tr → ∀ i past sh, Inv i past sh →
      Yields Inv i past (c.stations s act tr past sh) (c.perform s act sh))
    (course : Course S α) (h : Inv i past sh) :
    Yields Inv i past (course.stations c past sh) (course.run c sh) := by
  induction course generalizing i past sh with
  | done => exact ⟨h, fun _ hst => ⟨i, List.mem_singleton.1 hst ▸ h⟩⟩
  | step s answer next ihanswer ihnext =>
    -- the courses that answer the calls are parts of the tree, so that they keep the property
    have hact : Keeps Inv (fun call sh => (answer call sh).run c sh)
        (fun call past sh => (answer call sh).stations c past sh) :=
      fun call _ _ sh hsh => ihanswer call sh hsh
    have hdone := (hstep s _ _ hact i past sh h).concat past h
    have hlast := hdone.last
    rw [Stations.past_append] at hlast
    refine hdone.trans ?_
    rw [Stations.past_append]
    exact ihnext _ hlast

/-! ### What stays from one shell to a later one -/

/-- A relation of a shell to those that come after it, in which records of events do not matter. -/
structure Shell.Onward (R : Shell α → Shell α → Prop) : Prop where
  refl : ∀ sh, R sh sh
  trans : ∀ {sh sh' sh'' : Shell α}, R sh sh' → R sh' sh'' → R sh sh''
  note : ∀ sh e, R sh (sh.note e)

/-- Where the names in a table begin with those in an older one, what stood in the older one has a
successor of the same name in its place. -/
theorem Shell.exists_of_prefix {β γ : Type} {name : β → γ} {old now : Array β}
    (h : old.toList.map name <+: now.toList.map name) {i : Nat} {b : β} (hb : old[i]? = some b) :
    ∃ b', now[i]? = some b' ∧ name b' = name b := by
  obtain ⟨rest, hrest⟩ := h
  have hget : (old.toList.map name)[i]? = some (name b) := by
    rw [List.getElem?_map, Array.getElem?_toList, hb]
    rfl
  have hlt := (List.getElem?_eq_some_iff.1 hget).1
  rw [← List.getElem?_append_left hlt, hrest, List.getElem?_map, Array.getElem?_toList] at hget
  exact Option.map_eq_some_iff.1 hget

namespace Shell.Onward

variable {R : Shell α → Shell α → Prop} (hR : Onward R)
include hR

theorem callEach (hact : ∀ call sh, R sh (act call sh)) (told : List (CallbackId × Event))
    (sh : Shell α) : R sh (Shell.callEach act told sh) := by
  induction told generalizing sh with
  | nil => exact hR.refl sh
  | cons l ls ih =>
    exact hR.trans (hR.trans (hR.note sh l.2) (hact (.turn l.1) (sh.note l.2))) (ih _)

/-- What every step does as long as its callbacks do, every course does. -/
theorem run {c : Conduct S N α}
    (hstep : ∀ s act, (∀ call sh, R sh (act call sh)) → ∀ sh, R sh (c.perform s act sh))
    (course : Course S α) (sh : Shell α) : R sh (course.run c sh) := by
  induction course generalizing sh with
  | done => exact hR.refl sh
  | step s answer next ihanswer ihnext =>
    exact hR.trans (hstep s _ (fun call sh => ihanswer call sh sh) sh) (ihnext _ _)

end Shell.Onward

/-! ### Updates that take steps -/

/-- An update that has a turn of its own, and then makes a new value of the one that it was given
and of what its turn led to. -/
structure Updater (β α : Type) where
  turn : CallbackId
  value : β → Shell α → β

/-- The new value, and the shell after the turn. -/
def Updater.update {β : Type} (u : Updater β α) (act : Shell.Act α) (current : β) (sh : Shell α) :
    β × Shell α :=
  let sh := act (.turn u.turn) sh
  (u.value current sh, sh)

end AppShell
