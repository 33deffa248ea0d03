/-
AppShell/Scenario/Step.lean

Steps of a scenario.

A step names an object and says what to do with it.  What a verb means depends
on the object, so the parameters of all verbs stand in one record and a step
uses those that its verb asks for.  A step that installs a callback carries the
steps that the callback runs and the number of turns that it takes.

`Step.weight` bounds the number of steps that run and of turns that callbacks
can take because of a step: the step itself counts once, and so does each turn
of a callback, which brings the weight of what it runs.
-/
import AppShell.Calendar.Instant
import AppShell.Shell.Basic

namespace AppShell.Scenario

/-- A hook as it is described: its tag and how often it prevents. -/
structure HookSpec where
  tag : Json
  veto : Nat

/-- A message as it is described. -/
structure MessageSpec where
  text : String
  kind : MessageKind
  header : Option String
  dismissible : Bool
  loading : Bool
  hook : Option HookSpec

/-- Changes of a message; an absent one leaves its part as it is. -/
structure Edit where
  dismissible : Option Bool
  header : Option (Option String)
  headerAppend : Option String
  kind : Option MessageKind
  loading : Option Bool
  hook : Option (Option HookSpec)
  text : Option String
  textAppend : Option String

/-- How a new store is told which levels are granted. -/
inductive GrantSpec where
  | unchanged
  | default
  | levels (granted : List ConsentLevel)

/-- How a value is given that may be replaced or updated. -/
inductive Change where
  | value (content : Option String)
  | append (text : String)
  | to (content : Option String)
  | same

/-- The parameters of a step. -/
structure Parameters where
  verb : String
  target : Option String
  id : Option String
  source : Option String
  key : String
  level : Option ConsentLevel
  levels : List ConsentLevel
  text : String
  items : List (String × String)
  medium : String
  ignoreClose : Bool
  alwaysGranted : Bool
  grant : GrantSpec
  store : Option String
  context : Option String
  controls : Option String
  other : Option String
  expect : Option String
  close : Bool
  prefersLight : Option Bool
  patch : PreferencesPatch
  message : Option MessageSpec
  replacement : Option MessageSpec
  edit : Edit
  messageId : String
  failure : Failure
  lead : Option String
  full : Bool
  content : Option String
  change : Change
  opened : Option Bool
  seconds : Int
  nanos : Int

/-- A step: its parameters, the turns and the actions of its callback, and those of its hook. -/
inductive Step where
  | mk (parameters : Parameters) (turns : Nat) (actions : List Step)
      (hookTurns : Nat) (hookActions : List Step)

namespace Step

/-- The parameters of a step. -/
def parameters : Step → Parameters
  | .mk p _ _ _ _ => p

/-- The turns that the callback of a step takes. -/
def turns : Step → Nat
  | .mk _ n _ _ _ => n

/-- The steps that the callback of a step runs. -/
def actions : Step → List Step
  | .mk _ _ as _ _ => as

/-- The turns that the hook of a step takes. -/
def hookTurns : Step → Nat
  | .mk _ _ _ n _ => n

/-- The steps that the hook of a step runs. -/
def hookActions : Step → List Step
  | .mk _ _ _ _ as => as

mutual
/-- A bound for the steps and the turns of callbacks that come of a step. -/
def weight : Step → Nat
  | .mk _ turns actions hookTurns hookActions =>
    1 + turns * (1 + weightAll actions) + hookTurns * (1 + weightAll hookActions)
/-- A bound for the steps and the turns of callbacks that come of several steps. -/
def weightAll : List Step → Nat
  | [] => 0
  | s :: ss => s.weight + weightAll ss
end

end Step

end AppShell.Scenario
