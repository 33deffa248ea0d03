/-
AppShell/Proofs/Boards/Outdated.lean

What the listeners of a board are left with.

All listeners are told what a change led to, also if one of them has changed the
board again by then.  Those behind it in the round are told of that change first,
and of the first one last: the telling is outdated when it is made, and it is what
they are left with (`left_with_outdated_display`).

The main statement is `told_last_at_station`: at every station of every run, and
whatever is done from there on, all who listened to a board from then until the end
are told if anybody is.  What they are told last is what the board displays in the
end if and only if it was not outdated when it was told; and it is that if the board
changed once only.
-/
import AppShell.Proofs.Boards.Steps

namespace AppShell

variable {α : Type} {sh : Shell α}

namespace Shell

/-- Nobody listens to a board. -/
structure NobodyListens (sh : Shell α) : Prop where
  queues : ∀ (q : QueueId) (qu : Queue), sh.queues[q]? = some qu → qu.listeners = .empty
  panels : ∀ (p : PanelId) (pa : Panel), sh.panels[p]? = some pa → pa.listeners = .empty
  subscriptions : sh.subscriptions = #[]

theorem NobodyListens.audience_eq (h : sh.NobodyListens) {b : Board}
    {t : Listeners SubscriptionId} (ht : sh.audience b = some t) : t = .empty := by
  cases b with
  | queue q =>
    obtain ⟨listeners, hlisteners, rfl⟩ := Option.map_eq_some_iff.1 ht
    obtain ⟨qu, hqu, rfl⟩ := Option.map_eq_some_iff.1 hlisteners
    rw [h.queues q qu hqu]
    rfl
  | panel p =>
    obtain ⟨listeners, hlisteners, rfl⟩ := Option.map_eq_some_iff.1 ht
    obtain ⟨pa, hpa, rfl⟩ := Option.map_eq_some_iff.1 hlisteners
    rw [h.panels p pa hpa]
    rfl

theorem NobodyListens.seated (h : sh.NobodyListens) : sh.Seated where
  ordered b t ht := h.audience_eq ht ▸ Listeners.ordered_empty
  link b t ht n number := by
    rw [h.audience_eq ht, h.subscriptions]
    simp [Listeners.empty]
  queue q t ht l hl := by
    obtain ⟨qu, hqu, rfl⟩ := Option.map_eq_some_iff.1 ht
    rw [h.queues q qu hqu] at hl
    cases hl
  panel p t ht l hl := by
    obtain ⟨pa, hpa, rfl⟩ := Option.map_eq_some_iff.1 ht
    rw [h.panels p pa hpa] at hl
    cases hl

/-- The moment of a shell. -/
def since (sh : Shell α) : Since where
  count := sh.subscriptions.size
  told n := (sh.heard n).length

/-- Whether a listener of a board was told something from one shell on. -/
def Tells (b : Board) (sh sh' : Shell α) : Prop :=
  ∃ n, sh'.boardOf n = some b ∧ (sh.heard n).length < (sh'.heard n).length

/-- What the listeners of a board are left with, by what was noted from one shell on. -/
structure LeavesTold (b : Board) (notes : List BoardNote) (sh sh' : Shell α) : Prop where
  told : Tells b sh sh' → ∀ n, sh.seatOf n = some b → sh'.seatOf n = some b →
    (sh.heard n).length < (sh'.heard n).length
  last : Tells b sh sh' → ∀ n, sh.seatOf n = some b → sh'.seatOf n = some b →
    ((sh'.heard n).getLast? = some (sh'.display b) ↔
      .outdated n (sh'.heard n).length ∉ notes)
  once : Tells b sh sh' → notes.count (.changed b) ≤ 1 → ∀ n, sh.seatOf n = some b →
    sh'.seatOf n = some b → (sh'.heard n).getLast? = some (sh'.display b)

end Shell

open Shell (Tells LeavesTold)

theorem Shell.Seated.posted (h : sh.Seated) : Posted sh.since [] [] sh where
  seated := h
  count := Nat.le_refl _
  told _ := Nat.le_refl _
  unheard _ _ := rfl
  turn := nofun
  changed _ _ _ hlt := absurd hlt (Nat.lt_irrefl _)
  reached _ _ _ _ _ hnoted := nomatch hnoted
  shown _ _ _ hlt := absurd hlt (Nat.lt_irrefl _)
  bounded := nofun
  again := nofun

theorem Posted.leavesTold {notes : List BoardNote} {sh' : Shell α}
    (h : Posted sh.since [] notes sh') (b : Board) : LeavesTold b notes sh sh' := by
  -- nobody has a turn left in the end
  have hdone : ∀ n, ¬ Awaits [] n b := by
    rintro n ⟨t, ht, -⟩
    cases ht
  have htold : Tells b sh sh' → ∀ n, sh.seatOf n = some b → sh'.seatOf n = some b →
      (sh.heard n).length < (sh'.heard n).length := by
    rintro ⟨m, hm, hlt⟩ n hn hn'
    obtain ⟨hsome, hnoted⟩ := h.changed m b hm hlt
    have hcount := Shell.lt_of_boardOf (Shell.boardOf_of_seatOf hn)
    exact (h.reached n b hn' hcount hsome hnoted).resolve_left (hdone n)
  have hlast : Tells b sh sh' → ∀ n, sh.seatOf n = some b → sh'.seatOf n = some b →
      ((sh'.heard n).getLast? = some (sh'.display b) ↔
        .outdated n (sh'.heard n).length ∉ notes) := fun htells n hn hn' =>
    (h.shown n b hn' (htold htells n hn hn')).resolve_left (hdone n)
  refine ⟨htold, hlast, fun htells honce n hn hn' => ?_⟩
  -- an outdated telling takes a second change
  refine (hlast htells n hn hn').2 fun hnoted => ?_
  have htwice := h.again n b _ (Shell.boardOf_of_seatOf hn') hnoted
  exact absurd (Nat.le_trans htwice honce) (by decide)

/-- All who listened to a board from some station on until the end of what is done from there are
told if anybody is.  What they are told last is what the board displays in the end if and only if it
was not outdated when it was told, as it never is if the board changed once only. -/
theorem told_last_at_station {start : Shell α} (hstart : start.NobodyListens)
    (course : Course (BoardStep α) α) :
    ∀ st ∈ course.stations (BoardStep.conduct α) [] start,
      ∀ (steps : Course (BoardStep α) α) (b : Board),
        LeavesTold b ((steps.stations (BoardStep.conduct α) [] st.shell).past []) st.shell
          (steps.run (BoardStep.conduct α) st.shell) := by
  intro st hst steps b
  -- the seats at the station are all that the rest of the run starts with
  obtain ⟨turns, hposted⟩ := (course.yields yields_boardStep hstart.seated.posted).all st hst
  exact (steps.yields yields_boardStep hposted.seated.posted).last.leavesTold b

/-- A shell with one queue and one panel. -/
def boardStart : Shell Unit :=
  { Shell.empty with queues := #[.empty], panels := #[.empty] }

theorem nobodyListens_boardStart : boardStart.NobodyListens := by
  refine ⟨fun q qu hqu => ?_, fun p pa hpa => ?_, rfl⟩
  · obtain ⟨hlt, rfl⟩ := Array.getElem?_eq_some_iff.1 hqu
    obtain rfl : q = 0 := Nat.lt_one_iff.1 hlt
    rfl
  · obtain ⟨hlt, rfl⟩ := Array.getElem?_eq_some_iff.1 hpa
    obtain rfl : p = 0 := Nat.lt_one_iff.1 hlt
    rfl

/-- Two subscribers come to a board. -/
def twoCome (b : Board) : Course (BoardStep Unit) Unit :=
  .step (.subscribe b) (fun _ _ => .done) fun _ =>
    .step (.subscribe b) (fun _ _ => .done) fun _ => .done

/-- The shell in which two subscribers listen to a board. -/
def twoListen (b : Board) : Shell Unit :=
  (twoCome b).run (BoardStep.conduct Unit) boardStart

/-- Something is done with a board, and something else by the first subscriber when it is told. -/
def doneTwice (first second : BoardStep Unit) : Course (BoardStep Unit) Unit :=
  .step first
    (fun call _ =>
      if call = .turn 0 then .step second (fun _ _ => .done) fun _ => .done else .done)
    fun _ => .done

/-- A message of some text. -/
def textMessage (text : String) : MessageDefinition :=
  ⟨.info, none, .text text, true, false, none⟩

/-- Two messages are added. -/
def addedTwice : Course (BoardStep Unit) Unit :=
  doneTwice (.addOnce 0 (textMessage "a")) (.addOnce 0 (textMessage "b"))

/-- Two contents are set. -/
def setTwice : Course (BoardStep Unit) Unit :=
  doneTwice (.set 0 ⟨2, fun _ _ => some "a"⟩) (.set 0 ⟨2, fun _ _ => some "b"⟩)

theorem told_last_at_station_addedTwice :
    boardStart.NobodyListens ∧
      Tells (.queue 0) (twoListen (.queue 0))
        (addedTwice.run (BoardStep.conduct Unit) (twoListen (.queue 0))) ∧
      LeavesTold (.queue 0)
        [.outdated 1 2, .changed (.queue 0), .changed (.queue 0)]
        (twoListen (.queue 0)) (addedTwice.run (BoardStep.conduct Unit) (twoListen (.queue 0))) := by
  have hlast : ((twoCome (.queue 0)).stations (BoardStep.conduct Unit) [] boardStart).head? =
      some ⟨[], twoListen (.queue 0)⟩ := rfl
  refine ⟨nobodyListens_boardStart, ⟨1, rfl, by decide⟩, ?_⟩
  exact told_last_at_station nobodyListens_boardStart (twoCome (.queue 0)) _ (List.mem_of_head? hlast)
    addedTwice (.queue 0)

/-- The second subscriber of a queue is left with the list of one message when there are two, and that
of a panel with the content that was set first. -/
theorem left_with_outdated_display :
    ((twoListen (.queue 0)).seatOf 1 = some (.queue 0) ∧
      (addedTwice.run (BoardStep.conduct Unit) (twoListen (.queue 0))).seatOf 1 = some (.queue 0) ∧
      (addedTwice.run (BoardStep.conduct Unit) (twoListen (.queue 0))).heard 1 =
        [.messages [⟨"n2", textMessage "b"⟩, ⟨"n1", textMessage "a"⟩],
          .messages [⟨"n1", textMessage "a"⟩]] ∧
      (addedTwice.run (BoardStep.conduct Unit) (twoListen (.queue 0))).display (.queue 0) =
        .messages [⟨"n2", textMessage "b"⟩, ⟨"n1", textMessage "a"⟩]) ∧
    (twoListen (.panel 0)).seatOf 1 = some (.panel 0) ∧
      (setTwice.run (BoardStep.conduct Unit) (twoListen (.panel 0))).seatOf 1 = some (.panel 0) ∧
      (setTwice.run (BoardStep.conduct Unit) (twoListen (.panel 0))).heard 1 =
        [.panel ⟨some "b", false⟩, .panel ⟨some "a", false⟩] ∧
      (setTwice.run (BoardStep.conduct Unit) (twoListen (.panel 0))).display (.panel 0) =
        .panel ⟨some "b", false⟩ :=
  ⟨⟨rfl, rfl, rfl, rfl⟩, rfl, rfl, rfl, rfl⟩

end AppShell
