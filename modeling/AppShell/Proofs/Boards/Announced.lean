/-
AppShell/Proofs/Boards/Announced.lean

One announcement for each change.

`Shell.Announced` says what subscribers that only record were told in a run: each
display to which their board was changed while they listened, in this order, and
nothing else.  An operation that is refused changes nothing: a removal, a dismissal
or a clearing that takes no message out, and a release that is not the first one.
What the hook of a dismissal does meanwhile is its own doing, and noted as such, so
that a refused dismissal leaves what its hook left (`BoardStep.judged`).

The main statement is `announced_at_station`: this holds at every station of every
run.
-/
import AppShell.Proofs.Boards.Attending
import AppShell.Proofs.Boards.Outdated

namespace AppShell

variable {α : Type} {q : QueueId} {sh sh' sh'' : Shell α}

/-! ### Operations that are refused -/

namespace Shell

theorem SameBoards.refl (sh : Shell α) : SameBoards sh sh :=
  ⟨rfl, rfl, rfl, rfl, rfl, fun _ => rfl⟩

theorem SameBoards.trans (h : SameBoards sh sh') (h' : SameBoards sh' sh'') : SameBoards sh sh'' where
  queues := h'.queues.trans h.queues
  panels := h'.panels.trans h.panels
  handles := h'.handles.trans h.handles
  registrations := h'.registrations.trans h.registrations
  subscriptions := h'.subscriptions.trans h.subscriptions
  heard n := (h'.heard n).trans (h.heard n)

/-- Callbacks that leave boards, handles and registrations alone. -/
def LeavesBoards (act : Act α) : Prop :=
  ∀ call sh, SameBoards sh (act call sh)

/-- A hook leaves the boards alone when callbacks do. -/
theorem LeavesBoards.hooked {act : Act α} (h : LeavesBoards act) (id : String)
    (m : MessageDefinition) (sh : Shell α) : SameBoards sh (Shell.hooked act id m sh).2 := by
  rcases Deed.hook_cases id m sh with ⟨-, hhooked⟩ | ⟨f, c, prevented, -, hhooked, hf⟩
  · rw [hhooked]
    exact .refl sh
  · rw [hhooked]
    exact hf.trans (h (.turn c) (f sh))

/-- Releasing a second time does nothing. -/
theorem releaseRegistration_of_released {r : RegistrationId} (h : sh.isReleased r = true)
    (act : Act α) : releaseRegistration act r sh = sh := by
  rcases hr : sh.registrations[r]? with - | reg
  · simp only [releaseRegistration, hr]
  · simp only [isReleased, hr] at h
    simp only [releaseRegistration, hr, if_pos h]

/-- A registration that was released has nothing to release. -/
theorem releases?_of_released {r : RegistrationId} (h : sh.isReleased r = true) :
    sh.releases? r = none := by
  rcases hr : sh.registrations[r]? with - | reg
  · rw [releases?, hr]
    rfl
  · simp only [isReleased, hr] at h
    rw [releases?, hr, Option.filter_some, h]
    rfl

end Shell

namespace BoardStep

/-- The shell in which an operation is judged: for a dismissal, the one that the hook of the message
leaves. -/
def judged (act : Shell.Act α) (sh : Shell α) : BoardStep α → Shell α
  | .dismiss q id => ((sh.message? q id).map fun m => (Shell.hooked act id m sh).2).getD sh
  | _ => sh

/-- A removal, a dismissal or a clearing that fails, or a release that is not the first one. -/
def Refused (act : Shell.Act α) (sh : Shell α) : BoardStep α → Prop
  | .remove q id => (Shell.removeMessage act q id sh).1 = false
  | .dismiss q id => (Shell.dismissMessage act q id sh).1 = false
  | .clear h => (Shell.clearHandle act h sh).1 = false
  | .release r | .drop r => sh.isReleased r = true
  | _ => False

/-- What is refused changes nothing, and no change is noted. -/
theorem refused_eq {act : Shell.Act α} {s : BoardStep α} (h : s.Refused act sh) :
    s.changes? act sh = none ∧ s.perform act sh = s.judged act sh := by
  cases s with
  | remove q id =>
    exact ⟨if_neg (Bool.eq_false_iff.1 h), Shell.removeMessage_of_refused h⟩
  | dismiss q id =>
    refine ⟨if_neg (Bool.eq_false_iff.1 h), ?_⟩
    have hanswer : (Shell.dismissMessage act q id sh).1 = false := h
    show (Shell.dismissMessage act q id sh).2 = _
    -- a name that is not listed is refused before its hook would run
    rcases hm : sh.message? q id with - | m
    · rw [Shell.dismissMessage_of_none hm, judged, hm]
      rfl
    · rw [judged, hm]
      exact Shell.dismissMessage_of_refused hm hanswer
  | clear k =>
    refine ⟨if_neg (Bool.eq_false_iff.1 h), ?_⟩
    have hanswer : (Shell.clearHandle act k sh).1 = false := h
    show (Shell.clearHandle act k sh).2 = sh
    rcases hk : sh.handles[k]? with - | handle
    · simp only [Shell.clearHandle, hk]
    · simp only [Shell.clearHandle, hk] at hanswer ⊢
      exact Shell.removeMessage_of_refused hanswer
  | release r => exact ⟨Shell.releases?_of_released h, Shell.releaseRegistration_of_released h act⟩
  | drop r =>
    refine ⟨?_, ?_⟩
    · rw [changes?, Shell.releases?_of_released h, ite_self]
    · show Shell.letGo act (.registration r) sh = sh
      rw [Shell.letGo]
      split
      · rfl
      · exact Shell.releaseRegistration_of_released h act
  | _ => exact h.elim

/-- A removal changes the queue when the message is listed. -/
theorem changes?_remove (act : Shell.Act α) (q : QueueId) (id : String) (sh : Shell α) :
    (remove q id).changes? act sh = some (.queue q) ↔ id ∈ sh.messageIds q := by
  rw [changes?, Shell.answer_removeMessage]
  by_cases hid : id ∈ sh.messageIds q
  · rw [if_pos (decide_eq_true hid)]
    exact iff_of_true rfl hid
  · rw [if_neg fun hlisted => hid (of_decide_eq_true hlisted)]
    exact iff_of_false (Option.some_ne_none _).symm hid

/-- A dismissal changes the queue when the message is dismissible, its hook does not prevent it and
it is still listed. -/
theorem changes?_dismiss {id : String} {m : MessageDefinition} (hm : sh.message? q id = some m)
    (act : Shell.Act α) :
    (dismiss q id).changes? act sh = some (.queue q) ↔
      m.dismissible = true ∧ (Shell.hooked act id m sh).1 = false ∧
        id ∈ (Shell.hooked act id m sh).2.messageIds q := by
  have hanswer : (Shell.dismissMessage act q id sh).1 = true ↔
      m.dismissible = true ∧ (Shell.hooked act id m sh).1 = false ∧
        id ∈ (Shell.hooked act id m sh).2.messageIds q := by
    rw [Shell.answer_dismissMessage hm, Bool.and_eq_true, Bool.and_eq_true, Bool.not_eq_true',
      decide_eq_true_iff, and_assoc]
  rw [changes?, ← hanswer]
  by_cases hgoes : (Shell.dismissMessage act q id sh).1 = true
  · rw [if_pos hgoes]
    exact iff_of_true rfl hgoes
  · rw [if_neg hgoes]
    exact iff_of_false (Option.some_ne_none _).symm hgoes

/-- Clearing a handle changes the queue when its message is listed. -/
theorem changes?_clear {h : HandleId} {handle : Handle} (hh : sh.handles[h]? = some handle)
    (act : Shell.Act α) :
    (clear h).changes? act sh = some (.queue handle.queue) ↔
      handle.id ∈ sh.messageIds handle.queue := by
  rw [← changes?_remove act]
  simp only [changes?, Shell.clearHandle, hh, Option.map_some]

/-- What an operation is judged by changes no board, when callbacks change none. -/
theorem sameBoards_judged {act : Shell.Act α} (hact : Shell.LeavesBoards act) (s : BoardStep α)
    (sh : Shell α) : Shell.SameBoards sh (s.judged act sh) := by
  cases s with
  | dismiss q id =>
    rw [judged]
    rcases sh.message? q id with - | m
    · exact .refl sh
    · exact hact.hooked id m sh
  | _ => exact .refl sh

end BoardStep

/-! ### What subscribers were told -/

/-- A set lands if nothing is done with the panel meanwhile. -/
theorem Shell.setLands_of_leavesBoards {act : Shell.Act α} (hact : LeavesBoards act) (p : PanelId)
    (u : Updater (Option String) α) (sh : Shell α) : sh.setLands act p u = true := by
  rw [setLands, (hact (.turn u.turn) sh).panels]
  rcases hpa : sh.panels[p]? with - | pa
  · rfl
  · rcases howner : pa.visibleOwner with - | number
    · rw [Option.bind_some, howner]
    · rw [Option.bind_some, howner]
      exact Panel.registered_visibleOwner howner

/-- What subscribers were told in a run, by what was noted of it, and what is announced next: nothing
if an operation is refused, and otherwise one display if a removal, a dismissal or a clearing finds its
message, a set is not disturbed, or a registration is released for the first time. -/
structure Shell.Announced (start : Shell α) (past : List BoardMove) (sh : Shell α) : Prop where
  heard : ∀ n, sh.heard n = start.heard n ++ owed n past
  seat : ∀ n, sh.seatOf n = seatIn n past
  coherent : ∀ n, ∀ d ∈ owed n past, d.Coherent
  refused : ∀ (act : Shell.Act α) (s : BoardStep α), s.Refused act sh →
    s.changes? act sh = none ∧ s.perform act sh = s.judged act sh
  unchanged : ∀ (act : Shell.Act α) (s : BoardStep α), Shell.LeavesBoards act → s.Refused act sh →
    Shell.SameBoards sh (s.perform act sh)
  removed : ∀ (act : Shell.Act α) (q : QueueId) (id : String),
    (BoardStep.remove q id).changes? act sh = some (.queue q) ↔ id ∈ sh.messageIds q
  dismissed : ∀ (act : Shell.Act α) (q : QueueId) (id : String) (m : MessageDefinition),
    sh.message? q id = some m →
    ((BoardStep.dismiss q id).changes? act sh = some (.queue q) ↔
      m.dismissible = true ∧ (Shell.hooked act id m sh).1 = false ∧
        id ∈ (Shell.hooked act id m sh).2.messageIds q)
  cleared : ∀ (act : Shell.Act α) (h : HandleId) (handle : Handle), sh.handles[h]? = some handle →
    ((BoardStep.clear h).changes? act sh = some (.queue handle.queue) ↔
      handle.id ∈ sh.messageIds handle.queue)
  set : ∀ (act : Shell.Act α) (p : PanelId) (u : Updater (Option String) α),
    Shell.LeavesBoards act → (BoardStep.set p u).changes? act sh = some (.panel p)
  first : ∀ (act : Shell.Act α) (r : RegistrationId) (reg : Registration),
    sh.registrations[r]? = some reg → sh.panelAlive reg.panel = true →
    ((BoardStep.release r).changes? act sh = some (.panel reg.panel) ↔ .released r ∉ past)
  again : ∀ r : RegistrationId, .released r ∈ past → sh.isReleased r = true

/-- At the start nobody is owed anything. -/
theorem Attended.start {start : Shell α} (hstart : start.NobodyListens)
    (hnone : start.registrations = #[]) : Attended start [] [] start where
  seated := hstart.seated
  boards _ := rfl
  seat n := by
    rw [Shell.seatOf, hstart.subscriptions]
    rfl
  heard _ := (List.append_nil _).symm
  coherent := nofun
  entry hr := by
    rw [hnone] at hr
    cases hr
  distinct hr := by
    rw [hnone] at hr
    cases hr
  released hr := by
    rw [hnone] at hr
    cases hr
  issued := nofun
  handles := List.nil_prefix

/-- At every station of every run, all were told what they are owed. -/
theorem announced_at_station {start : Shell α} (hstart : start.NobodyListens)
    (hnone : start.registrations = #[]) (course : Course {s : BoardStep α // s.Apart} α) :
    ∀ st ∈ course.stations (BoardStep.recording α) [] start,
      Shell.Announced start st.past st.shell := by
  intro st hst
  obtain ⟨i, h⟩ := (course.yields yields_recording (.start hstart hnone)).all st hst
  refine ⟨h.heard, h.seat, fun n d hd => coherent_of_mem_owed h.coherent hd,
    fun act s hs => BoardStep.refused_eq hs, fun act s hact hs => ?unchanged,
    fun act q id => BoardStep.changes?_remove act q id st.shell,
    fun act q id m hm => BoardStep.changes?_dismiss hm act,
    fun act k handle hk => BoardStep.changes?_clear hk act,
    fun act p u hact => if_pos (st.shell.setLands_of_leavesBoards hact p u),
    fun act r reg hr halive => ?first, fun r hr => ?again⟩
  case unchanged =>
    rw [(BoardStep.refused_eq hs).2]
    exact s.sameBoards_judged hact st.shell
  case first =>
    -- a release is posted the first time only, and the history says whether this is it
    rw [BoardStep.changes?, Shell.releases?, hr, Option.filter_some, halive, Bool.and_true,
      ← h.toRooted.released hr]
    rcases reg.released with - | - <;> simp
  case again =>
    have hreg := Array.getElem?_eq_getElem (h.toRooted.issued hr)
    rw [Shell.isReleased, hreg]
    exact (h.toRooted.released hreg).2 hr

/-- A shell in which a queue and a panel are in use, and one hook prevents the first dismissal. -/
def announcingStart : Shell Unit :=
  { boardStart with
    names := [("queue", .queue 0), ("panel", .panel 0)]
    hooks := #[⟨.null, 1, 9⟩] }

/-- Operations that are done one after the other; whenever the hook has its turn, it adds a message. -/
def announcing : List {s : BoardStep Unit // s.Apart} → Course {s : BoardStep Unit // s.Apart} Unit
  | [] => .done
  | s :: rest =>
    .step s
      (fun call _ =>
        if call = .turn 9 then
          .step ⟨.addOnce 0 (textMessage "b"), trivial⟩ (fun _ _ => .done) fun _ => .done
        else .done)
      fun _ => announcing rest

/-- A message whose hook is asked before it is dismissed. -/
def vetoedMessage : MessageDefinition :=
  { textMessage "a" with onDismiss := some 0 }

/-- A message is added, dismissed twice, removed in vain, updated and cleared; content is registered,
set, opened and released twice; and the subscriber of the queue is gone when the last message comes. -/
def announcedRun : Course {s : BoardStep Unit // s.Apart} Unit :=
  announcing [⟨.subscribe (.queue 0), trivial⟩, ⟨.subscribe (.panel 0), trivial⟩,
    ⟨.add 0 vetoedMessage, trivial⟩,
    ⟨.dismiss 0 "n1", trivial⟩, ⟨.dismiss 0 "n1", trivial⟩, ⟨.remove 0 "n1", trivial⟩,
    ⟨.update 0 ⟨8, fun _ _ => textMessage "c"⟩, trivial⟩, ⟨.clear 0, trivial⟩,
    ⟨.register 0 (some "a"), trivial⟩, ⟨.set 0 ⟨8, fun _ _ => some "b"⟩, trivial⟩,
    ⟨.setOpened 0 ⟨8, fun _ _ => true⟩, trivial⟩, ⟨.release 0, trivial⟩, ⟨.release 0, trivial⟩,
    ⟨.unsubscribe 0, trivial⟩, ⟨.addOnce 0 (textMessage "d"), trivial⟩]

theorem announced_at_station_announcedRun :
    announcingStart.NobodyListens ∧ announcingStart.registrations = #[] ∧
      ∃ st ∈ announcedRun.stations (BoardStep.recording Unit) [] announcingStart,
        Shell.Announced announcingStart st.past st.shell ∧
        st.shell.heard 0 = [.messages [⟨"n1", vetoedMessage⟩],
          .messages [⟨"n2", textMessage "b"⟩, ⟨"n1", vetoedMessage⟩],
          .messages [⟨"n3", textMessage "b"⟩, ⟨"n2", textMessage "b"⟩, ⟨"n1", vetoedMessage⟩],
          .messages [⟨"n3", textMessage "b"⟩, ⟨"n2", textMessage "b"⟩],
          .messages [⟨"n1", textMessage "c"⟩, ⟨"n3", textMessage "b"⟩, ⟨"n2", textMessage "b"⟩],
          .messages [⟨"n3", textMessage "b"⟩, ⟨"n2", textMessage "b"⟩]] ∧
        st.shell.heard 1 = [.panel ⟨some "a", false⟩, .panel ⟨some "b", false⟩,
          .panel ⟨some "b", true⟩, .panel ⟨none, false⟩] := by
  have hstart : announcingStart.NobodyListens :=
    ⟨nobodyListens_boardStart.queues, nobodyListens_boardStart.panels, rfl⟩
  obtain ⟨st, hst, hshell⟩ := Option.map_eq_some_iff.1
    (announcedRun.head?_stations (BoardStep.recording Unit) [] announcingStart)
  refine ⟨hstart, rfl, st, List.mem_of_head? hst,
    announced_at_station hstart rfl announcedRun st (List.mem_of_head? hst), ?_, ?_⟩
  · rw [hshell]
    rfl
  · rw [hshell]
    rfl

end AppShell
