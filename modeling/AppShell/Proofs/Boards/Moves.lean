/-
AppShell/Proofs/Boards/Moves.lean

What is noted of an operation.

Which board an operation changes is told by its outcome (`BoardStep.changes?`): a
message that is added or pushed changes its queue, and so does a removal, a
dismissal or a clearing that answers so; registering and opening change the panel,
and so do a set that lands and the first release of a registration.  The change is
noted when the operation is done, together with what the board displays then
(`BoardStep.moves`), after whatever was noted while callbacks had their turns
(`BoardStep.stationsOf`).
-/
import AppShell.Proofs.Boards.Recording

namespace AppShell

variable {α N : Type}

/-! ### Turns of a deed -/

namespace Deed

/-- The stations while callbacks have the turns of a deed. -/
def turns (act : Shell.Act α) (tr : Answers N α) : Deed α → List N → Shell α → Stations N α
  | .done _, _, _ | .subscribe _, _, _ | .unsubscribe _, _, _ => []
  | .post b f rest, past, sh =>
    let sh := Shell.post act b (f sh)
    turns act tr (rest sh) past sh
  | .turn f c rest, past, sh =>
    let during := tr (.turn c) past (f sh)
    let sh := act (.turn c) (f sh)
    turns act tr (rest sh) (during.past past) sh ++ during

variable (act : Shell.Act α) (tr : Answers N α) (past : List N)

theorem turns_remove (q : QueueId) (id : String) (sh sh' : Shell α) :
    (Deed.remove q id sh).turns act tr past sh' = [] := by
  unfold Deed.remove
  split <;> rfl

theorem turns_push (h : HandleId) (m : MessageDefinition) (sh sh' : Shell α) :
    (Deed.push h m sh).turns act tr past sh' = [] := by
  unfold Deed.push
  split <;> rfl

theorem turns_release (r : RegistrationId) (sh sh' : Shell α) :
    (Deed.release r sh).turns act tr past sh' = [] := by
  unfold Deed.release
  split
  · rfl
  · split
    · rfl
    · split
      · rfl
      · split <;> rfl

/-- What is done with a panel after the turn of an update: content for an entry, if this is still
there. -/
def landing (p : PanelId) (owner : Option Nat) (content : Option String) (sh : Shell α) : Deed α :=
  match sh.panels[p]?.bind fun now => now.setEntry owner content with
  | none => .nothing
  | some changed =>
    .post (.panel p) (fun sh => sh.modifyPanel p fun _ => changed) fun _ => .nothing

theorem set_eq {p : PanelId} {pa : Panel} {sh : Shell α} (h : sh.panels[p]? = some pa)
    (u : Updater (Option String) α) :
    Deed.set p u sh =
      .turn id u.turn fun sh => landing p pa.visibleOwner (u.value pa.visible sh) sh := by
  unfold Deed.set
  split
  · next hnone => cases h.symm.trans hnone
  · next hsome =>
    obtain rfl := Option.some.inj (h.symm.trans hsome)
    rfl

theorem turns_landing (p : PanelId) (owner : Option Nat) (content : Option String)
    (sh sh' : Shell α) : (landing p owner content sh).turns act tr past sh' = [] := by
  unfold landing
  split <;> rfl

end Deed

/-! ### What an operation changes -/

namespace Shell

/-- The board of which an entry is taken away if a registration is released: its panel, if that is
still there and the registration was not released before. -/
def releases? (sh : Shell α) (r : RegistrationId) : Option Board :=
  (sh.registrations[r]?.filter fun reg => !reg.released && sh.panelAlive reg.panel).map fun reg =>
    .panel reg.panel

/-- Whether the entry that is visible when a panel is set is still there after the update. -/
def setLands (act : Act α) (p : PanelId) (u : Updater (Option String) α) (sh : Shell α) : Bool :=
  match sh.panels[p]?.bind Panel.visibleOwner with
  | none => true
  | some number =>
    ((act (.turn u.turn) sh).panels[p]?.map fun pa => pa.registered number).getD false

/-- That a registration was released. -/
def releaseOf (sh : Shell α) (r : RegistrationId) : List BoardMove :=
  if r < sh.registrations.size then [.released r] else []

end Shell

namespace BoardStep

/-- The board that an operation changes. -/
def changes? (act : Shell.Act α) (sh : Shell α) : BoardStep α → Option Board
  | .addOnce q _ | .add q _ | .notify q _ _ => some (.queue q)
  | .update h _ | .notifyHandle h _ _ => sh.handles[h]?.map fun handle => .queue handle.queue
  | .remove q id => if (Shell.removeMessage act q id sh).1 then some (.queue q) else none
  | .dismiss q id => if (Shell.dismissMessage act q id sh).1 then some (.queue q) else none
  | .clear h =>
    if (Shell.clearHandle act h sh).1 then sh.handles[h]?.map fun handle => .queue handle.queue
    else none
  | .register p _ | .setOpened p _ => some (.panel p)
  | .set p u => if sh.setLands act p u then some (.panel p) else none
  | .release r => sh.releases? r
  | .drop r => if .registration r ∈ sh.referenced then none else sh.releases? r
  | .subscribe _ | .unsubscribe _ | .aside _ => none

/-- What is noted of an operation besides a change: who comes and who leaves, and which registration
is released. -/
def besides (sh : Shell α) : BoardStep α → List BoardMove
  | .subscribe b => [.joined sh.subscriptions.size b]
  | .unsubscribe n => [.left n]
  | .release r => sh.releaseOf r
  | .drop r => if .registration r ∈ sh.referenced then [] else sh.releaseOf r
  | _ => []

/-- What is noted of an operation when it is done. -/
def moves (act : Shell.Act α) (sh : Shell α) (s : BoardStep α) : List BoardMove :=
  ((s.changes? act sh).map fun b => (s.perform act sh).changeOf b).getD [] ++ s.besides sh

/-- The stations of an operation: those of its turns, and the one when it is done. -/
def stationsOf (act : Shell.Act α) (tr : Answers BoardMove α) (past : List BoardMove)
    (sh : Shell α) (s : BoardStep α) : Stations BoardMove α :=
  let during := (s.deed sh).turns act tr past sh
  ⟨s.moves act sh ++ during.past past, s.perform act sh⟩ :: during

end BoardStep

/-! ### What is done besides -/

/-- Whatever else is done leaves boards, handles and registrations alone. -/
def BoardStep.Apart : BoardStep α → Prop
  | .aside a => ∀ sh, Shell.SameBoards sh (a.perform sh)
  | _ => True

/-- How operations are performed and noted when subscribers only record. -/
def BoardStep.recording (α : Type) :
    Conduct {s : BoardStep α // s.Apart} BoardMove α where
  perform s act sh := s.val.perform (Shell.hush act) sh
  stations s act tr past sh :=
    s.val.stationsOf (Shell.hush act) (Shell.hushAnswers tr) past sh

end AppShell
