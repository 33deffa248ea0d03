/-
AppShell/Scenario/Perform.lean

What a step does.

A step that makes an object, or gives or takes a name, needs no object to act
on.  Any other step looks its object up and keeps it alive until it ends; the
kind of the object decides what the verb means.  Where a kind of object knows
few verbs, one of them stands for every verb that it does not know.
-/
import AppShell.Calendar.Format
import AppShell.Revision
import AppShell.Scenario.Step
import AppShell.Shell.Lifetime
import AppShell.Shell.Notifications

namespace AppShell.Scenario

/-- The state of a shell whose callbacks run steps. -/
abbrev State := Shell Step

variable (act : Shell.Act Step)

/-! ### Parts of a step -/

/-- The name that a step gives; a step that gives none uses the empty one. -/
def Parameters.name (p : Parameters) : String := p.id.getD ""

/-- The callback that a step installs. -/
def installCallback (s : Step) (sh : State) : CallbackId × State :=
  sh.addCallback s.actions s.turns

/-- The hook that a step brings. -/
def installHook (s : Step) (hook : HookSpec) (sh : State) : HookId × State :=
  let (callback, sh) := sh.addCallback s.hookActions s.hookTurns
  (sh.hooks.size, { sh with hooks := sh.hooks.push ⟨hook.tag, hook.veto, callback⟩ })

/-- The message that a step describes, with its hook installed. -/
def makeMessage (s : Step) (m : MessageSpec) (sh : State) : MessageDefinition × State :=
  let plain : MessageDefinition := ⟨m.kind, m.header, .text m.text, m.dismissible, m.loading, none⟩
  match m.hook with
  | none => (plain, sh)
  | some hook =>
    let (h, sh) := installHook s hook sh
    ({ plain with onDismiss := some h }, sh)

/-- Runs the actions of a step that updates a value. -/
def runActions (s : Step) (sh : State) : State :=
  let (callback, sh) := installCallback s sh
  act (.turn callback) sh

/-- A message after the changes that need no hook. -/
def Edit.apply (e : Edit) (m : MessageDefinition) : MessageDefinition :=
  let header := e.header.getD m.header
  let header := match e.headerAppend with
    | some t => some (header.getD "" ++ t)
    | none => header
  let content := match e.text with
    | some t => MessageContent.text t
    | none => m.content
  let content := match e.textAppend, content with
    | some t, .text c => MessageContent.text (c ++ t)
    | _, c => c
  ⟨e.kind.getD m.kind, header, content, e.dismissible.getD m.dismissible,
    e.loading.getD m.loading, m.onDismiss⟩

/-- A message after the changes of a step, with its hook installed. -/
def editMessage (s : Step) (m : MessageDefinition) (sh : State) : MessageDefinition × State :=
  let e := s.parameters.edit
  let m := e.apply m
  match e.hook with
  | none => (m, sh)
  | some none => ({ m with onDismiss := none }, sh)
  | some (some hook) =>
    let (h, sh) := installHook s hook sh
    ({ m with onDismiss := some h }, sh)

/-- The message that a step pushes: its own one, or the last one edited after its actions ran. -/
def changeMessage (s : Step) (m : MessageDefinition) (sh : State) : MessageDefinition × State :=
  match s.parameters.replacement with
  | some own => makeMessage s own sh
  | none => editMessage s m (runActions act s sh)

/-- The value that a revision makes, the actions of its step run if it is a function. -/
def revise {β : Type} (s : Step) (r : Revision β) (current : β) (sh : State) : β × State :=
  match r with
  | .value _ => r.update current sh
  | .function _ => r.update current (runActions act s sh)

/-- The revision of a content that a change describes. -/
def Change.revision : Change → Revision (Option String)
  | .value c => .value c
  | .append t => .function fun content => content.map (· ++ t)
  | .to c => .function fun _ => c
  | .same => .function id

/-- The new content that a step gives, its actions run if it is an update. -/
def changeContent (s : Step) : Option String → State → Option String × State :=
  revise act s s.parameters.change.revision

/-- Whether a step opens the panel, its actions run if it is an update. -/
def changeOpened (s : Step) : Bool → State → Bool × State :=
  revise act s ((s.parameters.opened.map Revision.value).getD (.function not))

/-! ### Looking objects up -/

/-- The store with the given name. -/
def storeNamed? (sh : State) (name : Option String) : Option StoreId := do
  let .store s ← sh.find? (← name) | none
  return s

/-- The context with the given name. -/
def contextNamed? (sh : State) (name : Option String) : Option ContextId := do
  let .context c ← sh.find? (← name) | none
  return c

/-- The controls with the given name. -/
def controlsNamed? (sh : State) (name : Option String) : Option (QueueId × PanelId) := do
  let .controls q p ← sh.find? (← name) | none
  return (q, p)

/-- The medium with the given name. -/
def mediumNamed? (sh : State) (name : String) : Option Medium :=
  if name = "web:local" ∨ name = "web:session" then some .web
  else match sh.find? name with
    | some (.medium m) => some (.memory m)
    | _ => none

/-- The queue or handle with the given name. -/
def sinkTarget? (sh : State) (name : Option String) : Option SinkTarget := do
  match ← sh.find? (← name) with
  | .queue q => some (.queue q)
  | .handle h => some (.handle h)
  | _ => none

/-! ### Making objects -/

/-- A memory with the given entries. -/
def makeMemory (p : Parameters) : Memory :=
  p.items.foldl (fun m e => m.set e.1 e.2) (.empty p.name)

/-- A new store over a medium. -/
def makeStore (p : Parameters) (m : Medium) : Store :=
  let st := Store.new m ⟨p.ignoreClose, p.alwaysGranted⟩
  match p.grant with
  | .unchanged => st
  | .default => { st with consent := .default }
  | .levels granted => { st with consent := .ofList granted }

/-- A new queue. -/
def addQueue (sh : State) : QueueId × State :=
  (sh.queues.size, { sh with queues := sh.queues.push .empty })

/-- A new panel. -/
def addPanel (sh : State) : PanelId × State :=
  (sh.panels.size, { sh with panels := sh.panels.push .empty })

/-- Names a new object. -/
def named (p : Parameters) (o : Object) (sh : State) : Outcome × State :=
  (.nothing, sh.bindName act p.name o)

/-- The steps that need no object to act on, none for any other verb. -/
def performMaker (p : Parameters) (sh : State) : Option (Outcome × State) :=
  match p.verb with
  | "new_medium" =>
    named act p (.medium sh.memories.size)
      { sh with memories := sh.memories.push (makeMemory p) }
  | "new_store" =>
    match mediumNamed? sh p.medium with
    | none => some (.noObject "medium", sh)
    | some m =>
      let (s, sh) := sh.addStore (makeStore p m)
      named act p (.store s) sh
  | "new_session_store" =>
    let (s, sh) := sh.addStore .sessionDefault
    named act p (.store s) sh
  | "new_context" =>
    let (s, sh) := match storeNamed? sh p.store with
      | some s => (s, sh)
      | none => sh.addStore .sessionDefault
    let (c, sh) := sh.addContext s
    named act p (.context c) sh
  | "new_queue" =>
    let (q, sh) := addQueue sh
    named act p (.queue q) sh
  | "new_panel" =>
    let (r, sh) := addPanel sh
    named act p (.panel r) sh
  | "new_controls" =>
    let (q, sh) := addQueue sh
    let (r, sh) := addPanel sh
    named act p (.controls q r) sh
  | "new_owner" =>
    let (o, sh) := sh.addOwner (controlsNamed? sh p.controls) (contextNamed? sh p.context)
    named act p (.owner o) sh
  | "catch_notify" =>
    if p.target.isSome then none
    else match sinkTarget? sh p.source with
      | none => some (.noObject "target", sh)
      | some t => named act p (.sink t p.lead) sh
  | "clone" =>
    match p.source.bind sh.find? with
    | none => some (.noObject "from", sh)
    | some o => named act p o sh
  | "drop" =>
    let (there, sh) := sh.dropName act (p.target.getD "")
    some (.flag there, sh)
  | _ => none

/-! ### Mediums and stores -/

/-- A step on a medium. -/
def onMedium (m : MemoryId) (p : Parameters) (sh : State) : Outcome × State :=
  let mem := (sh.memories[m]?).getD (.empty "")
  match p.verb with
  | "peek" => (.text (mem.get? p.key), sh)
  | "put" =>
    (.nothing, { sh with memories := sh.memories.modify m fun mem => mem.set p.key p.text })
  | _ => (.mediumStatus mem.size mem.closed, sh)

/-- A subscription that a step names. -/
def nameSubscription (p : Parameters) (made : SubscriptionId × State) : Outcome × State :=
  let (sub, sh) := made
  (.active (sh.isActive sub), sh.bindName act p.name (.subscription sub))

/-- Subscribes to a key and names the subscription. -/
def subscribeKey (source : StoreSource) (key : String) (level : ConsentLevel)
    (report : KeyReport) (s : Step) (sh : State) : Outcome × State :=
  let (callback, sh) := installCallback s sh
  nameSubscription act s.parameters (sh.listen source ⟨key, level, report, callback⟩)

/-- The steps on stores and contexts that ask for a level. -/
def atLevel (source : StoreSource) (s : Step) (sh : State) : Outcome × State :=
  let p := s.parameters
  match p.level with
  | none => (.noObject "level", sh)
  | some level =>
    match p.verb with
    | "read" =>
      let (value, sh) := sh.read source p.key level
      (.text value, sh)
    | "write" => (.nothing, Shell.write act source p.key level p.text sh)
    | "remove" => (.nothing, Shell.remove act source p.key level sh)
    | "subscribe" => subscribeKey act source p.key level (.value p.name) s sh
    | "bind" =>
      (.bound p.key level, sh.bindName act p.name (.binding ⟨source, p.key, level⟩))
    | _ => (.noObject "step", sh)

/-- A step on a store. -/
def onStore (st : StoreId) (s : Step) (sh : State) : Outcome × State :=
  let p := s.parameters
  let store := (sh.stores[st]?).getD .sessionDefault
  match p.verb with
  | "set_consent" =>
    let sh := Shell.setConsent act st p.levels sh
    (.levels ((sh.stores[st]?.map fun st => st.consent.toList).getD []), sh)
  | "has_consent" => (.grants (ConsentLevel.all.map store.hasConsent), sh)
  | "config" => (.storeConfig store.config.ignoreClose store.config.alwaysGranted, sh)
  | "close" =>
    let sh := sh.closeStore st
    (.closed ((sh.stores[st]?.map Store.closed).getD false), sh)
  | "is_closed" => (.closed store.closed, sh)
  | "same_store" =>
    match storeNamed? sh p.other with
    | none => (.noObject "other", sh)
    | some other => (.flag (st == other), sh)
  | "watch" =>
    let (callback, sh) := installCallback s sh
    nameSubscription act p (sh.watch st p.name callback)
  | "reader" => (.nothing, sh.bindName act p.name (.reader (.store st)))
  | _ => atLevel act (.store st) s sh

/-- Replaces the store of a context, and closes and names the previous one if asked to. -/
def replace (c : ContextId) (st : StoreId) (p : Parameters) (sh : State) : Outcome × State :=
  let (previous, sh) := Shell.replaceStore act c st sh
  let expected := p.expect.map fun name => storeNamed? sh (some name) == previous
  let sh := match previous with
    | none => sh
    | some old =>
      let sh := if p.close then sh.closeStore old else sh
      match p.id with
      | none => sh
      | some name => sh.bindName act name (.store old)
  (.replaced expected, sh)

/-- A step on a context. -/
def onContext (c : ContextId) (s : Step) (sh : State) : Outcome × State :=
  let p := s.parameters
  match p.verb with
  | "active" =>
    match sh.activeStore (.context c) with
    | none => (.nothing, sh)
    | some st => (.nothing, sh.bindName act p.name (.store st))
  | "replace" =>
    match storeNamed? sh p.store with
    | none => (.noObject "store", sh)
    | some st => replace act c st p sh
  | "reader" => (.nothing, sh.bindName act p.name (.reader (.context c)))
  | _ => atLevel act (.context c) s sh

/-- A step on a binding. -/
def onBinding (b : Binding) (s : Step) (sh : State) : Outcome × State :=
  let p := s.parameters
  match p.verb with
  | "value" =>
    let (value, sh) := sh.bindingValue b
    (.text value, sh)
  | "set" => (.nothing, Shell.setBinding act b p.text sh)
  | "clear" => (.nothing, Shell.clearBinding act b sh)
  | _ => subscribeKey act b.source b.key b.level (.value p.name) s sh

/-- A step on a reader of preferences. -/
def onReader (source : StoreSource) (s : Step) (sh : State) : Outcome × State :=
  let p := s.parameters
  match p.verb with
  | "stored" =>
    let (stored, sh) := sh.storedPreferences source
    (.preferences stored, sh)
  | "effective" =>
    let (stored, sh) := sh.storedPreferences source
    (.effective (some (stored.resolve p.prefersLight)), sh)
  | "update" => (.nothing, Shell.updatePreferences act source p.patch sh)
  | _ =>
    subscribeKey act source Shell.preferencesKey Shell.preferencesLevel (.preferences p.name) s sh

/-- A step on a subscription. -/
def onSubscription (sub : SubscriptionId) (p : Parameters) (sh : State) : Outcome × State :=
  let sh := if p.verb = "unsubscribe" then sh.unsubscribe sub else sh
  (.active (sh.isActive sub), sh)

/-! ### Messages -/

/-- What a step on a queue answers. -/
def queueOutcome (q : QueueId) (returned : Returned) (sh : State) : Outcome × State :=
  (.queue returned (sh.messageIds q), sh)

/-- Adds the message of a step. -/
def addOnce (q : QueueId) (s : Step) (sh : State) : State :=
  match s.parameters.message with
  | none => sh
  | some m =>
    let (m, sh) := makeMessage s m sh
    (Shell.addMessage act q m sh).2

/-- Adds the message of a step, names its handle and gives its name. -/
def addNamed (q : QueueId) (s : Step) (sh : State) : Returned × State :=
  match s.parameters.message with
  | none => (.nothing, sh)
  | some m =>
    let (m, sh) := makeMessage s m sh
    let ((id, h), sh) := Shell.addWithHandle act q m sh
    (.id id, sh.bindName act s.parameters.name (.handle h))

/-- A step on a queue. -/
def onQueue (q : QueueId) (s : Step) (sh : State) : Outcome × State :=
  let p := s.parameters
  match p.verb with
  | "messages" => (.messages (sh.messages q), sh)
  | "len" => (.size (sh.messages q).length, sh)
  | "subscribe" =>
    let (callback, sh) := installCallback s sh
    nameSubscription act p (sh.listenQueue q ⟨p.name, p.full, callback⟩)
  | "add_once" => queueOutcome q .nothing (addOnce act q s sh)
  | "add" =>
    let (returned, sh) := addNamed act q s sh
    queueOutcome q returned sh
  | "dismiss" =>
    let (done, sh) := Shell.dismissMessage act q p.messageId sh
    queueOutcome q (.done done) sh
  | "remove" =>
    let (done, sh) := Shell.removeMessage act q p.messageId sh
    queueOutcome q (.done done) sh
  | "notify_error" =>
    queueOutcome q .nothing (Shell.notifyFailure act (.queue q) p.failure p.lead sh)
  | _ => (.noObject "step", sh)

/-- What a step on a handle answers. -/
def handleOutcome (h : HandleId) (sh : State) : Outcome × State :=
  match sh.handles[h]? with
  | none => (.nothing, sh)
  | some handle => (.handle handle.id handle.lastPushed, sh)

/-- A step on a handle. -/
def onHandle (h : HandleId) (s : Step) (sh : State) : Outcome × State :=
  let p := s.parameters
  match p.verb with
  | "clear" =>
    let (done, sh) := Shell.clearHandle act h sh
    (.flag done, sh)
  | "update" => handleOutcome h (Shell.updateHandle act h (changeMessage act s) sh)
  | "notify_error" => handleOutcome h (Shell.notifyFailure act (.handle h) p.failure p.lead sh)
  | _ => handleOutcome h sh

/-! ### Panels -/

/-- Registers the content of a step and names the registration. -/
def registerNamed (r : PanelId) (p : Parameters) (sh : State) : State :=
  let (reg, sh) := Shell.registerContent act r p.content sh
  sh.bindName act p.name (.registration reg)

/-- A step on a panel. -/
def onPanel (r : PanelId) (s : Step) (sh : State) : Outcome × State :=
  let p := s.parameters
  let answered (sh : State) : Outcome × State := (.panel (sh.panelSnapshot r), sh)
  match p.verb with
  | "register" => answered (registerNamed act r p sh)
  | "set" => answered (Shell.setContent act r (changeContent act s) sh)
  | "set_open" => answered (Shell.setOpened act r (changeOpened act s) sh)
  | "state" =>
    (.panelState (sh.panelContent r) (sh.panelIsOpen r) (sh.panelSnapshot r), sh)
  | "subscribe" =>
    let (callback, sh) := installCallback s sh
    nameSubscription act p (sh.listenPanel r ⟨p.name, callback⟩)
  | _ => (.noObject "step", sh)

/-- A step on a registration, which cannot be reached while it is being released. -/
def onRegistration (reg : RegistrationId) (p : Parameters) (sh : State) : Outcome × State :=
  if reg ∈ sh.busy then (.noObject "busy", sh)
  else if p.verb = "release" then
    let sh := Shell.releaseRegistration act reg { sh with busy := reg :: sh.busy }
    let sh := { sh with busy := sh.busy.tail }
    (.released (sh.isReleased reg), sh)
  else (.released (sh.isReleased reg), sh)

/-! ### Controls and owners -/

/-- A step on controls. -/
def onControls (q : QueueId) (r : PanelId) (s : Step) (sh : State) : Outcome × State :=
  let p := s.parameters
  let answered (sh : State) : Outcome × State :=
    (.controls (sh.messageIds q) (sh.panelSnapshot r), sh)
  match p.verb with
  | "dismiss" =>
    let (done, sh) := Shell.dismissMessage act q p.messageId sh
    (.flag done, sh)
  | "queue" => answered (sh.bindName act p.name (.queue q))
  | "panel" => answered (sh.bindName act p.name (.panel r))
  | "add" => answered (addNamed act q s sh).2
  | "add_once" => answered (addOnce act q s sh)
  | "notify_error" => answered (Shell.notifyFailure act (.queue q) p.failure p.lead sh)
  | "catch_notify" => answered (sh.bindName act p.name (.sink (.queue q) p.lead))
  | "tools_set" => answered (Shell.setContent act r (changeContent act s) sh)
  | "tools_open" => answered (Shell.setOpened act r (changeOpened act s) sh)
  | "tools_register" => answered (registerNamed act r p sh)
  | "tools_opener" => answered (sh.bindName act p.name (.opener r))
  | _ => (.noObject "step", sh)

/-- The preferences of a signal with the colours for an unknown host. -/
def signalEffective (sh : State) (i : SignalId) : Option EffectivePreferences :=
  (sh.signalValue i).map fun p => p.resolve none

/-- A step on an owner. -/
def onOwner (o : OwnerId) (s : Step) (sh : State) : Outcome × State :=
  let p := s.parameters
  let controls := sh.provided Owner.controls o
  let context := sh.provided Owner.context o
  match p.verb with
  | "use_controls" =>
    match controls with
    | none => (.noObject "controls", sh)
    | some (q, r) => named act p (.controls q r) sh
  | "use_tools" =>
    match controls with
    | none => (.noObject "controls", sh)
    | some (_, r) => named act p (.opener r) (sh.registerForOwner act o r p.content)
  | "use_preferences" =>
    match context with
    | none => (.noObject "context", sh)
    | some c =>
      let (i, sh) := sh.followPreferences o c
      let sh := sh.bindName act p.name (.preferences i c)
      (.effective (signalEffective sh i), sh)
  | "use_date_format" =>
    match context with
    | none => (.noObject "context", sh)
    | some c =>
      let (i, sh) := sh.followPreferences o c
      named act p (.dateFormat i) sh
  | "cleanup" => (.nothing, Shell.cleanupOwner act o sh)
  | _ => (.noObject "step", sh)

/-- A step on followed preferences. -/
def onPreferences (i : SignalId) (c : ContextId) (p : Parameters) (sh : State) :
    Outcome × State :=
  let sh :=
    if p.verb = "set" then Shell.updatePreferences act (.context c) p.patch sh else sh
  (.effective (signalEffective sh i), sh)

/-- A step on a followed date format. -/
def onDateFormat (i : SignalId) (p : Parameters) (sh : State) : Outcome × State :=
  match Calendar.Instant.ofFields? p.seconds p.nanos with
  | none => (.noInstant, sh)
  | some t => (.text ((sh.signalValue i).map fun prefs => prefs.dateFormat.dateTime t), sh)

/-! ### Steps -/

/-- A step on an object. -/
def onObject (o : Object) (s : Step) (sh : State) : Outcome × State :=
  let p := s.parameters
  match o with
  | .medium m => onMedium m p sh
  | .store st => onStore act st s sh
  | .context c => onContext act c s sh
  | .queue q => onQueue act q s sh
  | .panel r => onPanel act r s sh
  | .controls q r => onControls act q r s sh
  | .owner w => onOwner act w s sh
  | .binding b => onBinding act b s sh
  | .reader source => onReader act source s sh
  | .subscription sub => onSubscription sub p sh
  | .registration reg => onRegistration act reg p sh
  | .handle h => onHandle act h s sh
  | .sink target lead => (.nothing, Shell.notifyFailure act target p.failure lead sh)
  | .opener r => (.nothing, Shell.setOpened act r (changeOpened act s) sh)
  | .preferences i c => onPreferences act i c p sh
  | .dateFormat i => onDateFormat i p sh

/-- What a step does, and what it answers. -/
def perform (s : Step) (sh : State) : Outcome × State :=
  let p := s.parameters
  match performMaker act p sh with
  | some done => done
  | none =>
    let name := p.target.getD ""
    match sh.find? name with
    | none => (.noObject name, sh)
    | some o =>
      let (outcome, sh) := onObject act o s (sh.hold o)
      (outcome, sh.releaseHold act o)

end AppShell.Scenario
