/-
AppShell/Shell/Panels.lean

Showing content in the panel of tools.

After each change every listener is told the snapshot that the change led to.
An update runs between looking at the visible entry and changing it: its result
lands on the entry that was visible before, and is dropped with the entry.
-/
import AppShell.Shell.Basic

namespace AppShell.Shell

variable {α : Type} (act : Act α)

/-- What a panel shows. -/
def panelSnapshot (sh : Shell α) (p : PanelId) : PanelSnapshot :=
  (sh.panels[p]?.map Panel.snapshot).getD ⟨none, false⟩

/-- The visible content of a panel. -/
def panelContent (sh : Shell α) (p : PanelId) : Option String :=
  (sh.panels[p]?.map Panel.visible).getD none

/-- Whether a panel is shown as open. -/
def panelIsOpen (sh : Shell α) (p : PanelId) : Bool :=
  (sh.panels[p]?.map Panel.isOpen).getD false

/-- Tells the listeners of a panel what it shows. -/
def panelChanged (p : PanelId) (sh : Shell α) : Shell α :=
  match sh.panels[p]? with
  | none => sh
  | some pa =>
    pa.listeners.snapshot.foldl (fun sh l =>
      act (.turn l.callback) (sh.note (.panel l.label pa.snapshot))) sh

/-- Changes the state of a panel without telling anyone. -/
def modifyPanel (sh : Shell α) (p : PanelId) (f : Panel → Panel) : Shell α :=
  { sh with panels := sh.panels.modify p f }

/-- Registers content, and gives the registration. -/
def registerContent (p : PanelId) (content : Option String) (sh : Shell α) :
    RegistrationId × Shell α :=
  let number := ((sh.panels[p]?.map fun pa => (pa.register content).1).getD 0)
  let sh := panelChanged act p (sh.modifyPanel p fun pa => (pa.register content).2)
  (sh.registrations.size, { sh with registrations := sh.registrations.push ⟨p, number, false⟩ })

/-- Releases an entry of a panel that is still alive. -/
def releaseEntry (p : PanelId) (number : Nat) (sh : Shell α) : Shell α :=
  match sh.panels[p]? with
  | none => sh
  | some pa =>
    if sh.panelAlive p && pa.registered number then
      (panelChanged act p ((sh.hold (.panel p)).modifyPanel p fun pa => pa.release number)).unhold
    else sh

/-- Releases a registration; a second time changes nothing. -/
def releaseRegistration (r : RegistrationId) (sh : Shell α) : Shell α :=
  match sh.registrations[r]? with
  | none => sh
  | some reg =>
    if reg.released then sh
    else
      releaseEntry act reg.panel reg.number
        { sh with
          registrations := sh.registrations.modify r fun reg => { reg with released := true } }

/-- Whether a registration was released. -/
def isReleased (sh : Shell α) (r : RegistrationId) : Bool :=
  match sh.registrations[r]? with
  | some reg => reg.released
  | none => true

/-- Changes the visible content by an update that may itself change the shell. -/
def setContent (p : PanelId) (update : Option String → Shell α → Option String × Shell α)
    (sh : Shell α) : Shell α :=
  match sh.panels[p]? with
  | none => sh
  | some pa =>
    let (content, sh) := update pa.visible sh
    match sh.panels[p]?.bind fun now => now.setEntry pa.visibleOwner content with
    | none => sh
    | some changed => panelChanged act p (sh.modifyPanel p fun _ => changed)

/-- Opens or closes the panel by an update that may itself change the shell. -/
def setOpened (p : PanelId) (update : Bool → Shell α → Bool × Shell α) (sh : Shell α) : Shell α :=
  match sh.panels[p]? with
  | none => sh
  | some pa =>
    let (opened, sh) := update pa.opened sh
    panelChanged act p (sh.modifyPanel p fun pa => pa.setOpened opened)

/-- Attaches a listener to a panel. -/
def listenPanel (sh : Shell α) (p : PanelId) (l : PanelListener) : SubscriptionId × Shell α :=
  match sh.panels[p]? with
  | none => sh.addSubscription (.panel p) 0
  | some pa =>
    let (number, listeners) := pa.listeners.insert l
    (sh.modifyPanel p fun pa => { pa with listeners := listeners }).addSubscription
      (.panel p) number

end AppShell.Shell
