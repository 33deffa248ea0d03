/-
AppShell/Proofs/Boards/Recording.lean

Subscribers that only record.

A callback is that of a subscriber if it has the number of a subscription.  As long
as those callbacks do nothing (`Shell.hush`), a change of a board is posted at one
go: the events of all who listen are recorded, and nothing else happens
(`Shell.post_hush`).

What was done with boards is noted as a list of moves, from which it can be read
who listens to what (`seatIn`) and what each subscriber is owed (`owed`): all
displays that its board was changed to while it listened, in their order.
`Recorded` says that everybody was told exactly what they are owed.  A change that
is posted keeps this (`Recorded.told`), and so does whoever comes or goes.
-/
import AppShell.Proofs.Boards.Steps

namespace AppShell

variable {α N ι : Type} {b : Board} {sh sh' : Shell α}

/-! ### Who listens, once each -/

/-- No subscription listens to a board twice. -/
theorem Shell.Seated.nodup_listening (h : sh.Seated) (b : Board) : (sh.listening b).Nodup := by
  rcases ht : sh.audience b with - | t
  · rw [Shell.listening, ht]
    exact List.nodup_nil
  · rw [Shell.listening, ht]
    refine List.pairwise_map.2 ((h.ordered b t ht).increasing.imp_of_mem ?_)
    -- a subscription has one number
    rintro ⟨number, n⟩ ⟨number', n'⟩ he he' hlt rfl
    have hsame := ((h.link b t ht n number).1 he).symm.trans ((h.link b t ht n number').1 he')
    have hnumber : number = number' := congrArg Subscription.number (Option.some.inj hsame)
    exact absurd hlt (hnumber ▸ Nat.lt_irrefl _)

/-- Nobody listens to a board that is not there. -/
theorem Shell.listening_of_none (h : sh.audience b = none) : sh.listening b = [] := by
  rw [Shell.listening, h]
  rfl

/-- Whoever listens is a subscription that was made. -/
theorem Shell.lt_of_mem_listening (h : sh.Seated) {n : SubscriptionId}
    (hn : n ∈ sh.listening b) : n < sh.subscriptions.size := by
  obtain ⟨t, ht⟩ := Shell.Seated.exists_audience hn
  exact Shell.lt_of_boardOf (Shell.boardOf_of_seatOf ((h.mem_listening_iff ht).1 hn))

/-- The events of a display tell each of those who are named once. -/
theorem filterMap_shownTo? (d : Display) {ns : List SubscriptionId} (hns : ns.Nodup)
    (n : SubscriptionId) :
    (ns.map fun m => d.event m).filterMap (Event.shownTo? n) = if n ∈ ns then [d] else [] := by
  induction ns with
  | nil => rfl
  | cons m ns ih =>
    obtain ⟨hm, hns⟩ := List.nodup_cons.1 hns
    rw [List.map_cons, List.filterMap_cons, Display.shownTo?_event, ih hns]
    by_cases hn : n = m
    · subst hn
      rw [if_pos rfl, if_neg hm, if_pos List.mem_cons_self]
    · rw [if_neg hn]
      simp only [List.mem_cons, hn, false_or]

/-! ### Subscribers that do nothing -/

namespace Shell

/-- Callbacks of which those of subscribers do nothing. -/
def hush (act : Act α) : Act α
  | .turn c, sh => if c < sh.subscriptions.size then sh else act (.turn c) sh
  | .cleanup o, sh => act (.cleanup o) sh

/-- The stations of callbacks of which those of subscribers do nothing. -/
def hushAnswers (tr : Answers N α) : Answers N α
  | .turn c, past, sh => if c < sh.subscriptions.size then [] else tr (.turn c) past sh
  | .cleanup o, past, sh => tr (.cleanup o) past sh

/-- What callbacks keep is kept by those of them that are no subscriber's, too. -/
theorem keeps_hush {Inv : ι → List N → Shell α → Prop} {act : Act α} {tr : Answers N α}
    (hact : Keeps Inv act tr) : Keeps Inv (hush act) (hushAnswers tr) := by
  intro call i past sh h
  cases call with
  | turn c =>
    rw [hush, hushAnswers]
    split
    · exact .refl h
    · exact hact (.turn c) i past sh h
  | cleanup o => exact hact (.cleanup o) i past sh h

/-- The shell in which all who listen to a board were told what it displays. -/
def told (b : Board) (sh : Shell α) : Shell α :=
  { sh with log := sh.log ++ (sh.boardTold b).map Prod.snd }

/-- Where subscribers only record, telling them appends their events to the log. -/
theorem callEach_hush (act : Act α) {told : List (CallbackId × Event)}
    (h : ∀ l ∈ told, l.1 < sh.subscriptions.size) :
    callEach (hush act) told sh = { sh with log := sh.log ++ told.map Prod.snd } := by
  induction told generalizing sh with
  | nil => simp [callEach]
  | cons l ls ih =>
    have hl : hush act (.turn l.1) (sh.note l.2) = sh.note l.2 := if_pos (h l List.mem_cons_self)
    have hls : ∀ l' ∈ ls, l'.1 < (sh.note l.2).subscriptions.size := fun l' hl' =>
      h l' (List.mem_cons_of_mem l hl')
    show callEach (hush act) ls (hush act (.turn l.1) (sh.note l.2)) = _
    rw [hl, ih hls]
    simp [note]

/-- A change is posted without anything else happening. -/
theorem post_hush (h : sh.Seated) (act : Act α) (b : Board) : post (hush act) b sh = sh.told b := by
  refine callEach_hush act fun l hl => ?_
  rw [h.boardTold_eq] at hl
  obtain ⟨n, hn, rfl⟩ := List.mem_map.1 hl
  exact lt_of_mem_listening h hn

/-- Who listens to a board that is posted hears its display once more, and nobody else does. -/
theorem heard_told (h : sh.Seated) (b : Board) (n : SubscriptionId) :
    (sh.told b).heard n =
      sh.heard n ++ if n ∈ sh.listening b then [sh.display b] else [] := by
  rw [heard, told, List.filterMap_append, h.boardTold_eq, List.map_map]
  exact congrArg _ (filterMap_shownTo? (sh.display b) (h.nodup_listening b) n)

/-- Posting a board seats nobody and makes nobody leave. -/
theorem sameSeats_told (b : Board) (sh : Shell α) : SameSeats sh (sh.told b) :=
  ⟨fun _ => rfl, fun _ => rfl, rfl⟩

/-- Posting a board changes no display. -/
theorem display_told (b b' : Board) (sh : Shell α) : (sh.told b).display b' = sh.display b' := by
  cases b' <;> rfl

end Shell

/-! ### Moves -/

/-- What is noted of an operation: that somebody came to a board or left, that a registration was
released, or that a board was changed, and what it displays since. -/
inductive BoardMove where
  | joined (n : SubscriptionId) (b : Board)
  | left (n : SubscriptionId)
  | released (r : RegistrationId)
  | changed (b : Board) (d : Display)
deriving DecidableEq

/-- The board to which a subscriber listens after some moves, the newest of which comes first. -/
def seatIn (n : SubscriptionId) : List BoardMove → Option Board
  | [] => none
  | .joined m b :: past => if m = n then some b else seatIn n past
  | .left m :: past => if m = n then none else seatIn n past
  | .released _ :: past => seatIn n past
  | .changed _ _ :: past => seatIn n past

/-- What a subscriber is owed: each display to which its board was changed while it listened. -/
def owed (n : SubscriptionId) : List BoardMove → List Display
  | [] => []
  | .changed b d :: past => owed n past ++ if seatIn n past = some b then [d] else []
  | .joined _ _ :: past => owed n past
  | .left _ :: past => owed n past
  | .released _ :: past => owed n past

/-- A panel is displayed as open only with content. -/
def Display.Coherent : Display → Prop
  | .messages _ => True
  | .panel snapshot => snapshot.isOpen = true → snapshot.content.isSome = true

/-- What a board displays is coherent. -/
theorem Shell.coherent_display (sh : Shell α) (b : Board) : (sh.display b).Coherent := by
  cases b with
  | queue q => trivial
  | panel p =>
    intro hopen
    simp only [Shell.panelSnapshot] at hopen ⊢
    rcases e : sh.panels[p]? with - | pa
    · rw [e] at hopen
      cases hopen
    · rw [e] at hopen
      exact pa.snapshot_isOpen_imp hopen

/-- What is owed is coherent when every display noted is. -/
theorem coherent_of_mem_owed {n : SubscriptionId} {past : List BoardMove}
    (h : ∀ b d, .changed b d ∈ past → d.Coherent) {d : Display} (hd : d ∈ owed n past) :
    d.Coherent := by
  induction past with
  | nil => cases hd
  | cons move past ih =>
    have hrest := ih fun b d hmem => h b d (List.mem_cons_of_mem move hmem)
    cases move with
    | changed b d' =>
      rcases List.mem_append.1 hd with hd | hd
      · exact hrest hd
      · split at hd
        · rw [List.mem_singleton.1 hd]
          exact h b d' List.mem_cons_self
        · cases hd
    | joined m b | left m | released r => exact hrest hd

/-! ### What everybody was told -/

/-- Everybody was told what they are owed, and listens where the moves say. -/
structure Recorded (start : Shell α) (past : List BoardMove) (sh : Shell α) : Prop where
  seated : sh.Seated
  boards : ∀ b, (sh.audience b).isSome = (start.audience b).isSome
  seat : ∀ n, sh.seatOf n = seatIn n past
  heard : ∀ n, sh.heard n = start.heard n ++ owed n past
  coherent : ∀ b d, .changed b d ∈ past → d.Coherent

/-- The move of a board that is there and was changed. -/
def Shell.changeOf (sh : Shell α) (b : Board) : List BoardMove :=
  if (sh.audience b).isSome then [.changed b (sh.display b)] else []

/-- Of a panel that is not there, no change is noted. -/
theorem Shell.changeOf_of_none {p : PanelId} (h : sh.panels[p]? = none) :
    sh.changeOf (.panel p) = [] := by
  have haudience : sh.audience (.panel p) = none := by
    rw [Shell.audience, h]
    rfl
  rw [Shell.changeOf, haudience]
  rfl

/-- A step that touches another board, or none, shows no change of this one. -/
theorem Shell.Touches.changeOf {b? : Option Board} (hs : Shell.Touches b? sh sh')
    (hb : b? ≠ some b) : sh'.changeOf b = sh.changeOf b := by
  rw [Shell.changeOf, Shell.changeOf, hs.audience, hs.display b hb]

/-- The change that is shown is the same before and after it is posted. -/
theorem Shell.changeOf_told (b : Board) (sh : Shell α) : (sh.told b).changeOf b = sh.changeOf b := by
  rw [Shell.changeOf, Shell.changeOf, (Shell.sameSeats_told b sh).audience, Shell.display_told]

namespace Recorded

variable {start : Shell α} {past : List BoardMove}

/-- What changes neither a board nor its listeners. -/
theorem quiet (h : Recorded start past sh) (hs : Shell.Touches none sh sh') :
    Recorded start past sh' where
  seated := h.seated.of_sameSeats hs.toSameSeats
  boards b := by rw [hs.audience, h.boards]
  seat n := by rw [hs.seatOf, h.seat]
  heard n := by rw [hs.heard, h.heard]
  coherent := h.coherent

/-- That a registration was released is of no interest to those who listen. -/
theorem released (h : Recorded start past sh) (r : RegistrationId) :
    Recorded start (.released r :: past) sh where
  seated := h.seated
  boards := h.boards
  seat := h.seat
  heard := h.heard
  coherent b d hmem := h.coherent b d ((List.mem_cons.1 hmem).resolve_left nofun)

/-- Whoever listens to a board is told of its change. -/
theorem told (h : Recorded start past sh) (hs : Shell.Touches (some b) sh sh') :
    Recorded start ((sh'.told b).changeOf b ++ past) (sh'.told b) := by
  have hseated := h.seated.of_sameSeats hs.toSameSeats
  have hsame := Shell.sameSeats_told b sh'
  have hboards : ∀ b', ((sh'.told b).audience b').isSome = (start.audience b').isSome := fun b' => by
    rw [hsame.audience, hs.audience, h.boards]
  have hseat : ∀ n, (sh'.told b).seatOf n = seatIn n past := fun n => by
    rw [hsame.seatOf, hs.seatOf, h.seat]
  rw [Shell.changeOf_told, Shell.changeOf]
  rcases hb : sh'.audience b with - | t
  · -- nobody listens to a board that is not there
    refine ⟨hseated.of_sameSeats hsame, hboards, hseat, fun n => ?_, h.coherent⟩
    rw [Shell.heard_told hseated, Shell.listening_of_none hb, if_neg List.not_mem_nil,
      List.append_nil, hs.heard, h.heard]
    rfl
  · refine ⟨hseated.of_sameSeats hsame, hboards, hseat, fun n => ?_, fun b' d hmem => ?_⟩
    · -- whoever listens has a seat at the board, and hears the new display once
      have hlistens : n ∈ sh'.listening b ↔ seatIn n past = some b := by
        rw [hseated.mem_listening_iff hb, hs.seatOf, h.seat]
      show _ = start.heard n ++ (owed n past ++ if seatIn n past = some b then [sh'.display b] else [])
      rw [Shell.heard_told hseated, hs.heard, h.heard, List.append_assoc]
      simp only [hlistens]
    · rcases List.mem_cons.1 hmem with he | hmem
      · obtain ⟨-, rfl⟩ := BoardMove.changed.inj he
        exact sh'.coherent_display b
      · exact h.coherent b' d hmem

/-- A new subscriber is owed nothing yet. -/
theorem subscribe (h : Recorded start past sh) (b : Board) :
    Recorded start (.joined sh.subscriptions.size b :: past) (sh.subscribe b) where
  seated := h.seated.subscribe b
  boards b' := by rw [Shell.isSome_audience_subscribe, h.boards]
  seat n := by
    rw [seatIn, ← h.seat, Shell.seatOf, Shell.subscriptions_subscribe, Array.getElem?_push]
    by_cases hn : sh.subscriptions.size = n
    · rw [if_pos hn.symm, if_pos hn]
      simp [Option.filter_some]
    · rw [if_neg (Ne.symm hn), if_neg hn]
      rfl
  heard n := by
    rw [Shell.heard_subscribe]
    exact h.heard n
  coherent b' d hmem := h.coherent b' d ((List.mem_cons.1 hmem).resolve_left nofun)

/-- Who leaves is owed nothing more, and the others are owed what they were. -/
theorem unsubscribe (h : Recorded start past sh) (m : SubscriptionId) :
    Recorded start (.left m :: past) (sh.unsubscribe m) where
  seated := h.seated.unsubscribe m
  boards b := by rw [Shell.isSome_audience_unsubscribe, h.boards]
  seat n := by rw [seatIn, ← h.seat, Shell.seatOf_unsubscribe]
  heard n := by
    rw [Shell.heard_unsubscribe]
    exact h.heard n
  coherent b d hmem := h.coherent b d ((List.mem_cons.1 hmem).resolve_left nofun)

end Recorded

end AppShell
