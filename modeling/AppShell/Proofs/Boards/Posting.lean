/-
AppShell/Proofs/Boards/Posting.lean

Posting what a board displays.

When a board has changed, its listeners are told one after the other what it
displayed right after the change.  Each of them may change the board again, upon
which all listeners are told of that; then the first round goes on with what it
started with.  So a telling may be outdated when it is made, and this is noted
together with the changes.

`Posted` says what holds at every moment: a subscriber that was told something
still has a turn in one of the rounds in progress, or was told last what its board
displays if and only if that telling was not noted.  A change gives all who listen
a turn (`Posted.change`), and a telling uses one up (`Posted.tell`).

What is done with boards comes in pieces: quiet changes, changes that are posted,
and turns of callbacks (`Deed`).  The main statement is `Posted.yields_deed`: every
deed keeps what was posted, whatever is done in its turns.
-/
import AppShell.Proofs.Boards.Audience

namespace AppShell

variable {α : Type}

/-- What is noted: that a board has changed, or that a telling of a subscriber, the first, the second
and so on, was outdated when it was made. -/
inductive BoardNote where
  | changed (b : Board)
  | outdated (n : SubscriptionId) (count : Nat)
deriving DecidableEq

/-- A moment, by how many subscribers there were and how often each had been told. -/
structure Since where
  count : Nat
  told : SubscriptionId → Nat

/-- The turn of a subscriber in a round that is in progress: what it will be told, and which of the
noted changes of the board this round is about. -/
structure RoundTurn where
  board : Board
  subscriber : SubscriptionId
  display : Display
  change : Nat

/-- Whether a subscriber of a board has a turn left. -/
def Awaits (turns : List RoundTurn) (n : SubscriptionId) (b : Board) : Prop :=
  ∃ t ∈ turns, t.board = b ∧ t.subscriber = n

/-- The turns of the listeners of a board. -/
def roundOf (b : Board) (d : Display) (change : Nat) (ns : List SubscriptionId) : List RoundTurn :=
  ns.map fun n => ⟨b, n, d, change⟩

theorem Awaits.append_right {turns : List RoundTurn} {n : SubscriptionId} {b : Board}
    (h : Awaits turns n b) (more : List RoundTurn) : Awaits (more ++ turns) n b := by
  obtain ⟨t, ht, hb, hn⟩ := h
  exact ⟨t, List.mem_append_right more ht, hb, hn⟩

/-- What was noted since some moment tells who was told what its board displays. -/
structure Posted (o : Since) (turns : List RoundTurn) (notes : List BoardNote) (sh : Shell α) :
    Prop where
  seated : sh.Seated
  count : o.count ≤ sh.subscriptions.size
  told : ∀ n, o.told n ≤ (sh.heard n).length
  unheard : ∀ n, sh.subscriptions.size ≤ n → (sh.heard n).length = o.told n
  turn : ∀ t ∈ turns, sh.boardOf t.subscriber = some t.board ∧
    (sh.audience t.board).isSome = true ∧ 1 ≤ t.change ∧
    (t.change = notes.count (.changed t.board) ∧ t.display = sh.display t.board ∨
      t.change < notes.count (.changed t.board))
  changed : ∀ n b, sh.boardOf n = some b → o.told n < (sh.heard n).length →
    (sh.audience b).isSome = true ∧ .changed b ∈ notes
  reached : ∀ n b, sh.seatOf n = some b → n < o.count → (sh.audience b).isSome = true →
    .changed b ∈ notes →
    Awaits turns n b ∨ o.told n < (sh.heard n).length
  shown : ∀ n b, sh.seatOf n = some b → o.told n < (sh.heard n).length →
    Awaits turns n b ∨
      ((sh.heard n).getLast? = some (sh.display b) ↔ .outdated n (sh.heard n).length ∉ notes)
  bounded : ∀ n k, .outdated n k ∈ notes → n < sh.subscriptions.size ∧ k ≤ (sh.heard n).length
  again : ∀ n b k, sh.boardOf n = some b → .outdated n k ∈ notes → 2 ≤ notes.count (.changed b)

/-- The notes of a telling, which is noted if the board displays something else by then. -/
def Shell.noteOutdated (sh : Shell α) (b : Board) (l : CallbackId × Event)
    (notes : List BoardNote) : List BoardNote :=
  if l.2.shownTo? l.1 = some (sh.display b) then notes
  else .outdated l.1 ((sh.heard l.1).length + 1) :: notes

/-- The callback of a subscriber, and what it will be told. -/
def RoundTurn.told (t : RoundTurn) : CallbackId × Event :=
  (t.subscriber, t.display.event t.subscriber)

theorem Shell.mem_noteOutdated {sh : Shell α} {t : RoundTurn} {notes : List BoardNote}
    {note : BoardNote} : note ∈ sh.noteOutdated t.board t.told notes ↔
      note ∈ notes ∨ t.display ≠ sh.display t.board ∧
        note = .outdated t.subscriber ((sh.heard t.subscriber).length + 1) := by
  have hshown : t.told.2.shownTo? t.told.1 = some t.display := by
    rw [RoundTurn.told, Display.shownTo?_event, if_pos rfl]
  rw [noteOutdated, hshown]
  by_cases hd : t.display = sh.display t.board
  · simp [hd]
  · rw [if_neg fun h => hd (Option.some.inj h), List.mem_cons]
    simp [hd, RoundTurn.told, or_comm]

theorem Shell.count_noteOutdated (sh : Shell α) (t : RoundTurn) (notes : List BoardNote)
    (b : Board) : (sh.noteOutdated t.board t.told notes).count (.changed b) =
      notes.count (.changed b) := by
  rw [noteOutdated]
  split
  · rfl
  · exact List.count_cons_of_ne BoardNote.noConfusion

namespace Posted

open Shell (Touches)

variable {o : Since} {turns : List RoundTurn} {notes : List BoardNote} {sh sh' : Shell α} {b : Board}

/-! ### Changes -/

/-- What changes neither a board nor its listeners. -/
theorem quiet (h : Posted o turns notes sh) (hs : Touches none sh sh') :
    Posted o turns notes sh' where
  seated := h.seated.of_sameSeats hs.toSameSeats
  count := by
    rw [hs.subscriptions]
    exact h.count
  told n := by
    rw [hs.heard]
    exact h.told n
  unheard n hn := by
    rw [hs.heard]
    exact h.unheard n (hs.subscriptions ▸ hn)
  turn t ht := by
    rw [hs.boardOf, hs.audience, hs.display _ nofun]
    exact h.turn t ht
  changed n b hb hn := by
    rw [hs.boardOf] at hb
    rw [hs.heard] at hn
    rw [hs.audience]
    exact h.changed n b hb hn
  reached n b hb hn hsome hnoted := by
    rw [hs.seatOf] at hb
    rw [hs.audience] at hsome
    rw [hs.heard]
    exact h.reached n b hb hn hsome hnoted
  shown n b hb hn := by
    rw [hs.seatOf] at hb
    rw [hs.heard] at hn ⊢
    rw [hs.display _ nofun]
    exact h.shown n b hb hn
  bounded n k hk := by
    rw [hs.subscriptions, hs.heard]
    exact h.bounded n k hk
  again n b k hb hk := by
    rw [hs.boardOf] at hb
    exact h.again n b k hb hk

/-- A change of a board gives all who listen to it a turn. -/
theorem change (h : Posted o turns notes sh) (hs : Touches (some b) sh sh') :
    Posted o
      (roundOf b (sh'.display b) ((BoardNote.changed b :: notes).count (.changed b))
          (sh'.listening b) ++ turns)
      (.changed b :: notes) sh' := by
  have hcount : ∀ b', notes.count (.changed b') ≤ (BoardNote.changed b :: notes).count (.changed b') :=
    fun b' => List.Sublist.count_le _ (List.sublist_cons_self _ _)
  have hdisplay : ∀ {b'}, b' ≠ b → sh'.display b' = sh.display b' :=
    fun hb => hs.display _ fun he => hb (Option.some.inj he).symm
  have houtdated : ∀ n k, .outdated n k ∈ BoardNote.changed b :: notes ↔ .outdated n k ∈ notes := by
    intro n k
    simp
  -- all who listen to the board have a turn now
  have hround : ∀ n, sh.seatOf n = some b → (sh.audience b).isSome = true → Awaits
      (roundOf b (sh'.display b) ((BoardNote.changed b :: notes).count (.changed b))
        (sh'.listening b) ++ turns) n b := by
    intro n hn hsome
    obtain ⟨t, ht⟩ := Option.isSome_iff_exists.1 hsome
    refine ⟨_, List.mem_append_left turns (List.mem_map_of_mem ?_), rfl, rfl⟩
    rw [hs.listening]
    exact (h.seated.mem_listening_iff ht).2 hn
  refine ⟨h.seated.of_sameSeats hs.toSameSeats, ?count, fun n => ?told, fun n hn => ?unheard, fun t' ht' => ?turn,
    fun n b' hb hn => ?changed, fun n b' hb hn hsome hnoted => ?reached,
    fun n b' hb hn => ?shown, fun n k hk => ?bounded, fun n b' k hb hk => ?again⟩
  case count =>
    rw [hs.subscriptions]
    exact h.count
  case told =>
    rw [hs.heard]
    exact h.told n
  case unheard =>
    rw [hs.heard]
    exact h.unheard n (hs.subscriptions ▸ hn)
  case turn =>
    rw [hs.boardOf, hs.audience]
    rcases List.mem_append.1 ht' with ht' | ht'
    · obtain ⟨n, hn, rfl⟩ := List.mem_map.1 ht'
      rw [hs.listening] at hn
      obtain ⟨t, ht⟩ := Shell.Seated.exists_audience hn
      have hseat := (h.seated.mem_listening_iff ht).1 hn
      refine ⟨Shell.boardOf_of_seatOf hseat, Option.isSome_iff_exists.2 ⟨t, ht⟩, ?_,
        .inl ⟨rfl, rfl⟩⟩
      exact List.one_le_count_iff.2 List.mem_cons_self
    · obtain ⟨hb, hsome, hone, hcurrent⟩ := h.turn t' ht'
      refine ⟨hb, hsome, hone, ?_⟩
      by_cases hb' : t'.board = b
      · -- the round is about a change before this one
        refine .inr ?_
        rw [hb', List.count_cons_self]
        rcases hcurrent with ⟨he, -⟩ | hlt
        · rw [he, hb']
          exact Nat.lt_succ_self _
        · exact Nat.lt_succ_of_lt (hb' ▸ hlt)
      · have hne : BoardNote.changed b ≠ .changed t'.board := fun he =>
          hb' (BoardNote.changed.inj he).symm
        rw [List.count_cons_of_ne hne, hdisplay hb']
        exact hcurrent
  case changed =>
    rw [hs.boardOf] at hb
    rw [hs.heard] at hn
    rw [hs.audience]
    exact (h.changed n b' hb hn).imp_right (List.mem_cons_of_mem _)
  case reached =>
    rw [hs.seatOf] at hb
    rw [hs.audience] at hsome
    rw [hs.heard]
    by_cases hb' : b' = b
    · subst hb'
      exact .inl (hround n hb hsome)
    · have hold : .changed b' ∈ notes := by simpa [hb'] using hnoted
      exact (h.reached n b' hb hn hsome hold).imp_left (·.append_right _)
  case shown =>
    rw [hs.seatOf] at hb
    rw [hs.heard] at hn ⊢
    by_cases hb' : b' = b
    · subst hb'
      exact .inl (hround n hb (h.changed n b' (Shell.boardOf_of_seatOf hb) hn).1)
    · rw [hdisplay hb', houtdated]
      exact (h.shown n b' hb hn).imp_left (·.append_right _)
  case bounded =>
    rw [hs.subscriptions, hs.heard]
    exact h.bounded n k ((houtdated n k).1 hk)
  case again =>
    rw [hs.boardOf] at hb
    exact Nat.le_trans (h.again n b' k hb ((houtdated n k).1 hk)) (hcount b')

/-! ### Tellings -/

/-- A subscriber that is told what its turn is about needs that turn no more. -/
theorem tell {t : RoundTurn} (h : Posted o (t :: turns) notes sh) :
    Posted o turns (sh.noteOutdated t.board t.told notes) (sh.note t.told.2) := by
  obtain ⟨hboard, hsome, hone, hcurrent⟩ := h.turn t List.mem_cons_self
  have hsame : Shell.SameSeats sh (sh.note t.told.2) := ⟨fun _ => rfl, fun _ => rfl, rfl⟩
  have hself : (sh.note t.told.2).heard t.subscriber = sh.heard t.subscriber ++ [t.display] := by
    rw [Shell.heard_note, RoundTurn.told, Display.shownTo?_event, if_pos rfl]
    rfl
  have hother : ∀ n, n ≠ t.subscriber → (sh.note t.told.2).heard n = sh.heard n := by
    intro n hn
    rw [Shell.heard_note, RoundTurn.told, Display.shownTo?_event, if_neg hn]
    exact List.append_nil _
  have hlonger : ∀ n, (sh.heard n).length ≤ ((sh.note t.told.2).heard n).length := by
    intro n
    rw [Shell.heard_note, List.length_append]
    exact Nat.le_add_right _ _
  have hawaits : ∀ n b, n ≠ t.subscriber → Awaits (t :: turns) n b → Awaits turns n b := by
    rintro n b hn ⟨t', ht', hb, hsub⟩
    rcases List.mem_cons.1 ht' with rfl | ht'
    · exact absurd hsub.symm hn
    · exact ⟨t', ht', hb, hsub⟩
  refine ⟨h.seated.of_sameSeats hsame, h.count, fun n => ?told, fun n hn => ?unheard,
    fun t' ht' => ?turn, fun n b hb hn => ?changed, fun n b hb hn hsome hnoted => ?reached,
    fun n b hb hn => ?shown, fun n k hk => ?bounded, fun n b k hb hk => ?again⟩
  case told => exact Nat.le_trans (h.told n) (hlonger n)
  case unheard =>
    -- whoever has a turn has subscribed
    have hne : n ≠ t.subscriber := by
      rintro rfl
      exact absurd (Shell.lt_of_boardOf hboard) (Nat.not_lt.2 hn)
    rw [hother n hne]
    exact h.unheard n hn
  case turn =>
    rw [Shell.count_noteOutdated]
    exact h.turn t' (List.mem_cons_of_mem _ ht')
  case changed =>
    by_cases hne : n = t.subscriber
    · subst hne
      obtain rfl : t.board = b := Option.some.inj (hboard.symm.trans hb)
      refine ⟨hsome, Shell.mem_noteOutdated.2 (.inl ?_)⟩
      refine List.one_le_count_iff.1 (Nat.le_trans hone ?_)
      exact hcurrent.elim (fun he => Nat.le_of_eq he.1) Nat.le_of_lt
    · rw [hother n hne] at hn
      exact (h.changed n b hb hn).imp_right fun hold => Shell.mem_noteOutdated.2 (.inl hold)
  case reached =>
    by_cases hne : n = t.subscriber
    · subst hne
      refine .inr ?_
      rw [hself, List.length_append]
      exact Nat.lt_succ_of_le (h.told _)
    · rw [hother n hne]
      have hold : .changed b ∈ notes := by simpa [Shell.mem_noteOutdated] using hnoted
      exact (h.reached n b hb hn hsome hold).imp_left (hawaits n b hne)
  case shown =>
    by_cases hne : n = t.subscriber
    · subst hne
      obtain rfl : t.board = b :=
        Option.some.inj (hboard.symm.trans (Shell.boardOf_of_seatOf hb))
      refine .inr ?_
      rw [hself, List.getLast?_concat, List.length_append, Shell.mem_noteOutdated]
      have hnew : .outdated t.subscriber ((sh.heard t.subscriber).length + 1) ∉ notes := fun hk =>
        Nat.not_succ_le_self _ (h.bounded _ _ hk).2
      show some t.display = some (sh.display t.board) ↔ _
      simp [hnew]
    · rw [hother n hne] at hn ⊢
      refine (h.shown n b hb hn).imp (hawaits n b hne) fun hc => hc.trans (not_congr ?_)
      rw [Shell.mem_noteOutdated]
      simp [hne]
  case bounded =>
    rcases Shell.mem_noteOutdated.1 hk with hk | ⟨-, hk⟩
    · obtain ⟨hlt, hle⟩ := h.bounded n k hk
      exact ⟨hlt, Nat.le_trans hle (hlonger n)⟩
    · obtain ⟨rfl, rfl⟩ := BoardNote.outdated.inj hk
      refine ⟨Shell.lt_of_boardOf hboard, ?_⟩
      rw [hself, List.length_append]
      exact Nat.le_refl _
  case again =>
    rw [Shell.count_noteOutdated]
    rcases Shell.mem_noteOutdated.1 hk with hk | ⟨hd, hk⟩
    · exact h.again n b k hb hk
    · -- the board displays something else than what the round is about
      obtain ⟨rfl, -⟩ := BoardNote.outdated.inj hk
      obtain rfl : t.board = b := Option.some.inj (hboard.symm.trans hb)
      have hlt := hcurrent.resolve_left fun he => hd he.2
      exact Nat.lt_of_le_of_lt hone hlt

/-! ### Who comes and goes -/

/-- A new subscriber was told nothing yet. -/
theorem subscribe (h : Posted o turns notes sh) (b : Board) :
    Posted o turns notes (sh.subscribe b) := by
  -- the new subscription was never told, and the seats of the others stay
  have hheard : ∀ n, (sh.subscribe b).heard n = sh.heard n := Shell.heard_subscribe b sh
  have hold : ∀ n, n ≠ sh.subscriptions.size →
      (sh.subscribe b).subscriptions[n]? = sh.subscriptions[n]? := fun n hn => by
    rw [Shell.subscriptions_subscribe, Array.getElem?_push, if_neg hn]
  have hboard : ∀ n, n ≠ sh.subscriptions.size → (sh.subscribe b).boardOf n = sh.boardOf n :=
    fun n hn => by rw [Shell.boardOf, Shell.boardOf, hold n hn]
  have hseat : ∀ n, n ≠ sh.subscriptions.size → (sh.subscribe b).seatOf n = sh.seatOf n :=
    fun n hn => by rw [Shell.seatOf, Shell.seatOf, hold n hn]
  have haudience : ∀ b', ((sh.subscribe b).audience b').isSome = (sh.audience b').isSome :=
    Shell.isSome_audience_subscribe b sh
  have hsize : (sh.subscribe b).subscriptions.size = sh.subscriptions.size + 1 := by
    rw [Shell.subscriptions_subscribe, Array.size_push]
  have hnew : ¬ o.told sh.subscriptions.size < (sh.heard sh.subscriptions.size).length := by
    rw [h.unheard _ (Nat.le_refl _)]
    exact Nat.lt_irrefl _
  refine ⟨h.seated.subscribe b, ?count, fun n => ?told, fun n hn => ?unheard, fun t ht => ?turn,
    fun n b' hb hn => ?changed, fun n b' hb hn hsome hnoted => ?reached,
    fun n b' hb hn => ?shown, fun n k hk => ?bounded, fun n b' k hb hk => ?again⟩
  case count => exact hsize ▸ Nat.le_succ_of_le h.count
  case told => exact hheard n ▸ h.told n
  case unheard =>
    rw [hheard]
    rw [hsize] at hn
    exact h.unheard n (Nat.le_of_succ_le hn)
  case turn =>
    obtain ⟨hb, hrest⟩ := h.turn t ht
    rw [hboard _ (Nat.ne_of_lt (Shell.lt_of_boardOf hb)), haudience, Shell.display_subscribe]
    exact ⟨hb, hrest⟩
  case changed =>
    rw [hheard] at hn
    have hne : n ≠ sh.subscriptions.size := fun he => hnew (he ▸ hn)
    rw [haudience]
    exact h.changed n b' (hboard n hne ▸ hb) hn
  case reached =>
    rw [hheard]
    have hne : n ≠ sh.subscriptions.size := Nat.ne_of_lt (Nat.lt_of_lt_of_le hn h.count)
    exact h.reached n b' (hseat n hne ▸ hb) hn (haudience b' ▸ hsome) hnoted
  case shown =>
    rw [hheard] at hn ⊢
    have hne : n ≠ sh.subscriptions.size := fun he => hnew (he ▸ hn)
    rw [Shell.display_subscribe]
    exact h.shown n b' (hseat n hne ▸ hb) hn
  case bounded =>
    rw [hheard, hsize]
    exact (h.bounded n k hk).imp_left Nat.lt_succ_of_lt
  case again =>
    have hne : n ≠ sh.subscriptions.size := Nat.ne_of_lt (h.bounded n k hk).1
    exact h.again n b' k (hboard n hne ▸ hb) hk

theorem unsubscribe (h : Posted o turns notes sh) (m : SubscriptionId) :
    Posted o turns notes (sh.unsubscribe m) := by
  -- nobody gets a seat, so that each claim about a seat is one about a seat that was there
  have hheard : ∀ n, (sh.unsubscribe m).heard n = sh.heard n := Shell.heard_unsubscribe sh m
  have hseat : ∀ n b, (sh.unsubscribe m).seatOf n = some b → sh.seatOf n = some b := by
    intro n b hb
    rw [Shell.seatOf_unsubscribe] at hb
    split at hb
    · cases hb
    · exact hb
  have haudience : ∀ b, ((sh.unsubscribe m).audience b).isSome = (sh.audience b).isSome :=
    Shell.isSome_audience_unsubscribe sh m
  have hsize : (sh.unsubscribe m).subscriptions.size = sh.subscriptions.size := by
    rcases sh.unsubscribe_cases m with he | ⟨table, number, -, he⟩
    · rw [he]
    · rw [he]
      exact Array.size_modify
  refine ⟨h.seated.unsubscribe m, hsize ▸ h.count, fun n => hheard n ▸ h.told n, fun n hn => ?unheard,
    fun t ht => ?turn, fun n b hb hn => ?changed, fun n b hb hn hsome hnoted => ?reached,
    fun n b hb hn => ?shown, fun n k hk => ?bounded, fun n b k hb hk => ?again⟩
  case unheard =>
    rw [hheard]
    exact h.unheard n (hsize ▸ hn)
  case turn =>
    rw [Shell.boardOf_unsubscribe, haudience, Shell.display_unsubscribe]
    exact h.turn t ht
  case changed =>
    rw [Shell.boardOf_unsubscribe] at hb
    rw [haudience]
    exact h.changed n b hb (hheard n ▸ hn)
  case reached =>
    rw [hheard]
    exact h.reached n b (hseat n b hb) hn (haudience b ▸ hsome) hnoted
  case shown =>
    rw [hheard] at hn ⊢
    rw [Shell.display_unsubscribe]
    exact h.shown n b (hseat n b hb) hn
  case bounded =>
    rw [hheard, hsize]
    exact h.bounded n k hk
  case again =>
    rw [Shell.boardOf_unsubscribe] at hb
    exact h.again n b k hb hk

end Posted

/-! ### Rounds -/

namespace Shell

variable (act : Act α) (tr : Answers BoardNote α) (b : Board)

/-- Tells the listeners of a board what it displays. -/
def post (sh : Shell α) : Shell α :=
  callEach act (sh.boardTold b) sh

/-- The stations while some listeners of a board are told. -/
def roundStations (told : List (CallbackId × Event)) (notes : List BoardNote) (sh : Shell α) :
    Stations BoardNote α :=
  foldStations (fun sh l => act (.turn l.1) (sh.note l.2))
    (fun l notes sh => tr (.turn l.1) (sh.noteOutdated b l notes) (sh.note l.2) ++
      [⟨sh.noteOutdated b l notes, sh.note l.2⟩]) told notes sh

/-- The stations from a change of a board on, while its listeners are told. -/
def postStations (notes : List BoardNote) (sh : Shell α) : Stations BoardNote α :=
  roundStations act tr b (sh.boardTold b) (.changed b :: notes) sh ++ [⟨.changed b :: notes, sh⟩]

end Shell

namespace Posted

variable {o : Since} {turns : List RoundTurn} {notes : List BoardNote} {sh sh' : Shell α} {b : Board}
  {act : Shell.Act α} {tr : Answers BoardNote α}

/-- A round uses up the turns of those who are told in it. -/
theorem yields_round (hact : Keeps (Posted o) act tr) (d : Display) (change : Nat)
    (ns : List SubscriptionId) (h : Posted o (roundOf b d change ns ++ turns) notes sh) :
    Yields (Posted o) turns notes
      (Shell.roundStations act tr b (ns.map fun n => (n, d.event n)) notes sh)
      (Shell.callEach act (ns.map fun n => (n, d.event n)) sh) := by
  induction ns generalizing notes sh with
  | nil => exact .refl h
  | cons n ns ih =>
    have htold := Posted.tell (t := ⟨b, n, d, change⟩) h
    have hdone := Yields.concat notes htold (hact (.turn n) _ _ _ htold)
    exact hdone.trans (ih hdone.last)

/-- A change of a board that is posted. -/
theorem yields_post (hact : Keeps (Posted o) act tr) (h : Posted o turns notes sh)
    (hs : Shell.Touches (some b) sh sh') :
    Yields (Posted o) turns notes (Shell.postStations act tr b notes sh')
      (Shell.post act b sh') := by
  have hchange := h.change hs
  refine .concat notes hchange ?_
  rw [Shell.post, hchange.seated.boardTold_eq]
  exact yields_round hact _ _ _ hchange

end Posted

/-! ### Deeds -/

/-- What is done with boards: a quiet change to end with, a subscriber who comes or goes, a change of
a board that is posted before the rest, or a quiet change and a turn of a callback before the
rest. -/
inductive Deed (α : Type) where
  | done (f : Shell α → Shell α)
  | subscribe (b : Board)
  | unsubscribe (n : SubscriptionId)
  | post (b : Board) (f : Shell α → Shell α) (rest : Shell α → Deed α)
  | turn (f : Shell α → Shell α) (c : CallbackId) (rest : Shell α → Deed α)

namespace Deed

/-- Nothing is done. -/
def nothing : Deed α := .done id

/-- The shell after a deed. -/
def run (act : Shell.Act α) : Deed α → Shell α → Shell α
  | .done f, sh => f sh
  | .subscribe b, sh => sh.subscribe b
  | .unsubscribe n, sh => sh.unsubscribe n
  | .post b f rest, sh =>
    let sh := Shell.post act b (f sh)
    run act (rest sh) sh
  | .turn f c rest, sh =>
    let sh := act (.turn c) (f sh)
    run act (rest sh) sh

/-- The stations of a deed. -/
def stations (act : Shell.Act α) (tr : Answers BoardNote α) :
    Deed α → List BoardNote → Shell α → Stations BoardNote α
  | .done _, _, _ | .subscribe _, _, _ | .unsubscribe _, _, _ => []
  | .post b f rest, notes, sh =>
    let during := Shell.postStations act tr b notes (f sh)
    let sh := Shell.post act b (f sh)
    stations act tr (rest sh) (during.past notes) sh ++ during
  | .turn f c rest, notes, sh =>
    let during := tr (.turn c) notes (f sh)
    let sh := act (.turn c) (f sh)
    stations act tr (rest sh) (during.past notes) sh ++ during

/-- The changes of a deed are quiet where they are not posted, and touch no board but the one for
which they are. -/
def Proper : Deed α → Shell α → Prop
  | .done f, sh => Shell.Touches none sh (f sh)
  | .subscribe _, _ | .unsubscribe _, _ => True
  | .post b f rest, sh => Shell.Touches (some b) sh (f sh) ∧ ∀ sh, (rest sh).Proper sh
  | .turn f _ rest, sh => Shell.Touches none sh (f sh) ∧ ∀ sh, (rest sh).Proper sh

end Deed

/-- A deed keeps what was posted, as long as its turns do. -/
theorem Posted.yields_deed {o : Since} {turns : List RoundTurn} {notes : List BoardNote}
    {sh : Shell α} {act : Shell.Act α} {tr : Answers BoardNote α} (hact : Keeps (Posted o) act tr)
    (deed : Deed α) (hdeed : deed.Proper sh) (h : Posted o turns notes sh) :
    Yields (Posted o) turns notes (deed.stations act tr notes sh) (deed.run act sh) := by
  induction deed generalizing notes sh with
  | done f => exact .refl (h.quiet hdeed)
  | subscribe b => exact .refl (h.subscribe b)
  | unsubscribe n => exact .refl (h.unsubscribe n)
  | post b f rest ih =>
    obtain ⟨hf, hrest⟩ := hdeed
    have hpost := h.yields_post hact hf
    exact hpost.trans (ih _ (hrest _) hpost.last)
  | turn f c rest ih =>
    obtain ⟨hf, hrest⟩ := hdeed
    have hturn := hact (.turn c) turns notes (f sh) (h.quiet hf)
    exact hturn.trans (ih _ (hrest _) hturn.last)

end AppShell
