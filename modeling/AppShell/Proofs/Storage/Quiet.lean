/-
AppShell/Proofs/Storage/Quiet.lean

Announcements while callbacks only record.

With quiet callbacks an announcement changes nothing but the log and the
signals (`SameObjects`), so all listeners are told what can be read at its
start.  `Delivers n vs` adds what one subscriber is told: the values `vs`, in
order.  The main statement is `delivers_announce`: a subscriber is told once for
each place in which it is listed among the listeners of the store and of the
living contexts that relay it.
-/
import AppShell.Proofs.Storage.Gate
import AppShell.Proofs.Storage.History

namespace AppShell

/-- Whether a listener is the subscriber of a number. -/
def KeyListener.records (n : SubscriptionId) (l : KeyListener) : Bool :=
  l.report == .value (recordLabel n)

/-- The value that an event tells the subscriber of a number. -/
def Event.toldTo (n : SubscriptionId) : Event → Option (Option String)
  | .value subscriber v => if subscriber = recordLabel n then some v else none
  | _ => none

namespace Shell

variable {α : Type}

/-- What the subscriber of a number was told, in order. -/
def received (sh : Shell α) (n : SubscriptionId) : List (Option String) :=
  sh.log.filterMap (Event.toldTo n)

/-! ### Shells with the same objects -/

/-- Nothing but the log and the signals differs. -/
def SameObjects (sh sh' : Shell α) : Prop :=
  sh' = { sh with log := sh'.log, signals := sh'.signals }

namespace SameObjects

variable {sh sh' sh'' : Shell α}

theorem refl (sh : Shell α) : SameObjects sh sh := rfl

theorem trans (h : SameObjects sh sh') (h' : SameObjects sh' sh'') : SameObjects sh sh'' := by
  unfold SameObjects at h h' ⊢
  rw [h', h]

theorem note (sh : Shell α) (e : Event) : SameObjects sh (sh.note e) := rfl

theorem memories (h : SameObjects sh sh') : sh'.memories = sh.memories := by
  rw [h]

theorem stores (h : SameObjects sh sh') : sh'.stores = sh.stores := by
  rw [h]

theorem contexts (h : SameObjects sh sh') : sh'.contexts = sh.contexts := by
  rw [h]

theorem activeStore (h : SameObjects sh sh') (source : StoreSource) :
    sh'.activeStore source = sh.activeStore source := by
  cases source with
  | store s => rfl
  | context c => simp only [Shell.activeStore, h.contexts]

theorem entry (h : SameObjects sh sh') (m : Medium) (key : String) :
    sh'.entry m key = sh.entry m key := by
  cases m with
  | web => rfl
  | memory i => simp only [Shell.entry, h.memories]

theorem admitted (h : SameObjects sh sh') (b : Binding) : sh'.admitted b = sh.admitted b := by
  simp only [Shell.admitted, h.activeStore, admits, h.stores]

theorem mediumOf (h : SameObjects sh sh') (s : StoreId) : sh'.mediumOf s = sh.mediumOf s := by
  simp only [Shell.mediumOf, h.stores]

/-- The same objects give the same values. -/
theorem valueOf (h : SameObjects sh sh') (source : StoreSource) (key : String)
    (level : ConsentLevel) : sh'.valueOf source key level = sh.valueOf source key level := by
  simp only [valueOf_eq, h.admitted, h.mediumOf, h.entry]

theorem contextAlive (h : SameObjects sh sh') (c : ContextId) :
    sh'.contextAlive c = sh.contextAlive c := by
  rw [h]
  rfl

end SameObjects

/-- To read is noted, and changes no object. -/
theorem sameObjects_read (sh : Shell α) (source : StoreSource) (key : String)
    (level : ConsentLevel) : SameObjects sh (sh.read source key level).2 := by
  unfold read readStore mediumGet
  repeat' split
  all_goals rfl

/-! ### What a subscriber is told -/

/-- Nothing but the log and the signals changes, and a subscriber is told the given values. -/
structure Delivers (n : SubscriptionId) (vs : List (Option String)) (sh sh' : Shell α) : Prop where
  same : SameObjects sh sh'
  told : sh'.received n = sh.received n ++ vs

variable {n : SubscriptionId}

theorem Delivers.refl (sh : Shell α) : Delivers n [] sh sh :=
  ⟨.refl sh, (List.append_nil _).symm⟩

/-- What is told in two stretches is told in one, in order. -/
theorem Delivers.trans {sh sh' sh'' : Shell α} {vs vs' : List (Option String)}
    (h : Delivers n vs sh sh') (h' : Delivers n vs' sh' sh'') : Delivers n (vs ++ vs') sh sh'' :=
  ⟨h.same.trans h'.same, by rw [h'.told, h.told, List.append_assoc]⟩

/-- A note adds to what a subscriber received exactly what it tells them. -/
theorem received_note (sh : Shell α) (e : Event) :
    (sh.note e).received n = sh.received n ++ (Event.toldTo n e).toList := by
  rcases he : Event.toldTo n e with - | v <;> simp [received, note, he]

theorem delivers_note (sh : Shell α) (e : Event) :
    Delivers n (Event.toldTo n e).toList sh (sh.note e) :=
  ⟨.note sh e, received_note sh e⟩

/-- A note that tells a subscriber nothing adds nothing. -/
theorem delivers_note_of_none {e : Event} (he : Event.toldTo n e = none) (sh : Shell α) :
    Delivers n [] sh (sh.note e) := by
  simpa [he] using delivers_note (n := n) sh e

/-- Nobody is told anything when a value is read. -/
theorem delivers_read (sh : Shell α) (source : StoreSource) (key : String)
    (level : ConsentLevel) : Delivers n [] sh (sh.read source key level).2 := by
  unfold read readStore mediumGet
  repeat' split
  all_goals first
    | exact .refl sh
    | exact delivers_note_of_none rfl sh

/-- A delivery tells the value to the listener of the subscriber, if it is theirs. -/
theorem delivers_deliver (l : KeyListener) (value : Option String) (sh : Shell α) :
    Delivers n (if l.records n then [value] else []) sh (deliver quiet l value sh) := by
  unfold deliver KeyListener.records
  rcases l.report with label | label | i
  · by_cases hl : label = recordLabel n
    · simpa [quiet, Event.toldTo, hl] using delivers_note (n := n) sh (.value label value)
    · simpa [quiet, Event.toldTo, hl] using delivers_note (n := n) sh (.value label value)
  · exact delivers_note_of_none rfl sh
  · exact ⟨rfl, (List.append_nil _).symm⟩

/-- Of the listeners of a source a subscriber is told as many values as listeners among them are
theirs. -/
theorem delivers_tell (source : StoreSource) (ls : List KeyListener) (sh : Shell α) :
    Delivers n ((ls.filter (·.records n)).map fun l => sh.valueOf source l.key l.level) sh
      (tell quiet source ls sh) := by
  induction ls generalizing sh with
  | nil => exact .refl sh
  | cons l ls ih =>
    have hread := delivers_read (n := n) sh source l.key l.level
    have hone := hread.trans
      (delivers_deliver l (sh.read source l.key l.level).1 (sh.read source l.key l.level).2)
    have hall := hone.trans (ih _)
    -- the rest is told what could be read before the first one was told
    simp only [hone.same.valueOf] at hall
    by_cases hl : l.records n = true
    · simpa [hl, tell, valueOf] using hall
    · simpa [hl, tell, valueOf] using hall

/-- The listeners of a context that an announcement is passed on to. -/
def relayed (sh : Shell α) (e : StoreEvent) (c : ContextId) : List KeyListener :=
  match sh.contexts[c]? with
  | none => []
  | some ct => if sh.contextAlive c then ct.keyed.snapshot.filter e.concerns else []

/-- A context relays an event to those of its listeners whom the event concerns. -/
theorem delivers_relay (c : ContextId) (e : StoreEvent) (sh : Shell α) :
    Delivers n (((sh.relayed e c).filter (·.records n)).map fun l =>
      sh.valueOf (.context c) l.key l.level) sh (relay quiet c e sh) := by
  unfold relayed relay
  rcases ec : sh.contexts[c]? with - | ct
  · exact .refl sh
  · by_cases ha : sh.contextAlive c = true
    · simp only [ha, if_true]
      have htell := delivers_tell (n := n) (.context c) (ct.keyed.snapshot.filter e.concerns)
        (sh.hold (.context c))
      refine ⟨?_, ?_⟩
      · -- the context is let go of again
        unfold SameObjects unhold
        rw [htell.same]
        rfl
      · have hvalue : ∀ l : KeyListener, (sh.hold (.context c)).valueOf (.context c) l.key l.level
            = sh.valueOf (.context c) l.key l.level := by
          intro l
          simp only [valueOf_eq]
          rfl
        simp only [hvalue] at htell
        exact htell.told
    · simp only [ha]
      exact .refl sh

/-- What a subscriber is told when an observer hears an announcement. -/
def heardBy (sh : Shell α) (n : SubscriptionId) (e : StoreEvent) :
    StoreObserver → List (Option String)
  | .watch _ _ => []
  | .relay c => ((sh.relayed e c).filter (·.records n)).map fun l =>
      sh.valueOf (.context c) l.key l.level

theorem SameObjects.heardBy {sh sh' : Shell α} (h : SameObjects sh sh') (e : StoreEvent)
    (o : StoreObserver) : sh'.heardBy n e o = sh.heardBy n e o := by
  cases o with
  | watch label callback => rfl
  | relay c => simp only [Shell.heardBy, relayed, h.contexts, h.contextAlive, h.valueOf]

/-- An observer passes on what it is there for: a record tells one subscriber, a relay those behind
it. -/
theorem delivers_observe (e : StoreEvent) (sh : Shell α) (o : StoreObserver) :
    Delivers n (sh.heardBy n e o) sh (observe quiet e sh o) := by
  cases o with
  | watch label callback =>
    cases e with
    | written key => exact delivers_note_of_none rfl sh
    | consentChanged levels => exact delivers_note_of_none rfl sh
  | relay c => exact delivers_relay c e sh

/-- Observers are told one after the other. -/
theorem delivers_observers (e : StoreEvent) (os : List StoreObserver) (sh : Shell α) :
    Delivers n (os.flatMap (sh.heardBy n e)) sh (os.foldl (observe quiet e) sh) := by
  induction os generalizing sh with
  | nil => exact .refl sh
  | cons o os ih =>
    have hone := delivers_observe (n := n) e sh o
    have hall := hone.trans (ih _)
    -- what the others hear does not depend on what the first one did
    have hrest : (observe quiet e sh o).heardBy n e = sh.heardBy n e :=
      funext fun o' => hone.same.heardBy e o'
    rw [hrest] at hall
    rw [List.flatMap_cons]
    exact hall

/-- An announcement tells a subscriber once for each place in which it is listed. -/
theorem delivers_announce {s : StoreId} {st : Store} {sh : Shell α} (hs : sh.stores[s]? = some st)
    (e : StoreEvent) :
    Delivers n
      ((((st.keyed.snapshot.filter e.concerns).filter (·.records n)).map fun l =>
        sh.valueOf (.store s) l.key l.level) ++ st.observers.snapshot.flatMap (sh.heardBy n e))
      sh (announce quiet s e sh) := by
  have htell := delivers_tell (n := n) (.store s) (st.keyed.snapshot.filter e.concerns) sh
  have hobs := delivers_observers (n := n) e st.observers.snapshot
    (tell quiet (.store s) (st.keyed.snapshot.filter e.concerns) sh)
  have hheard : (tell quiet (.store s) (st.keyed.snapshot.filter e.concerns) sh).heardBy n e
      = sh.heardBy n e := funext fun o => htell.same.heardBy e o
  rw [hheard] at hobs
  have hstores := htell.same.stores
  simp only [announce, hs, tellObservers, hstores]
  exact htell.trans hobs

theorem sameObjects_deliver (l : KeyListener) (value : Option String) (sh : Shell α) :
    SameObjects sh (deliver quiet l value sh) :=
  (delivers_deliver (n := 0) l value sh).same

/-- To tell values to listeners changes no object, if nobody answers. -/
theorem sameObjects_tell (source : StoreSource) (ls : List KeyListener) (sh : Shell α) :
    SameObjects sh (tell quiet source ls sh) :=
  (delivers_tell (n := 0) source ls sh).same

theorem sameObjects_observe (e : StoreEvent) (sh : Shell α) (o : StoreObserver) :
    SameObjects sh (observe quiet e sh o) :=
  (delivers_observe (n := 0) e sh o).same

/-- An announcement changes no object, if nobody answers. -/
theorem sameObjects_announce (s : StoreId) (e : StoreEvent) (sh : Shell α) :
    SameObjects sh (announce quiet s e sh) := by
  rcases hs : sh.stores[s]? with - | st
  · simp only [announce, hs]
    exact .refl sh
  · exact (delivers_announce (n := 0) hs e).same

end Shell

end AppShell
