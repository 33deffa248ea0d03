/-
AppShell/Scenario/Run.lean

Running a scenario.

A callback takes a turn as long as it has turns left: the number goes down
first, then its steps run in order.  A callback may be called again while it
runs, so a bound on how deep calls nest is carried along; the weight of a
scenario is always enough, since every call that does something uses up a turn
of a callback or the place of an owner below its parent.
-/
import AppShell.Scenario.Perform

namespace AppShell.Scenario

/-- Runs one step of a callback and records what it answered. -/
def performNested (act : Shell.Act Step) (sh : State) (s : Step) : State :=
  let (outcome, sh) := perform act s sh
  sh.note (.nested s.parameters.verb outcome)

/-- A turn of a callback, which does nothing if it has none left. -/
def takeTurn (act : Shell.Act Step) (callback : CallbackId) (sh : State) : State :=
  match sh.callbacks[callback]? with
  | none => sh
  | some c =>
    if c.remaining = 0 then sh
    else
      c.actions.foldl (performNested act)
        { sh with
          callbacks := sh.callbacks.modify callback fun c =>
            { c with remaining := c.remaining - 1 } }

/-- The answer to a call, within calls nested at most as deep as the given bound. -/
def respond : Nat → Shell.Act Step
  | 0, _, sh => sh
  | depth + 1, .turn callback, sh => takeTurn (respond depth) callback sh
  | depth + 1, .cleanup o, sh => sh.answerCleanup (respond depth) o

/-- What a step answered, and what happened while it ran. -/
structure Record where
  outcome : Outcome
  events : List Event
deriving DecidableEq

/-- Runs a step and gives its record. -/
def runStep (depth : Nat) (s : Step) (sh : State) : Record × State :=
  let (outcome, sh) := perform (respond depth) s { sh with log := [] }
  (⟨outcome, sh.log⟩, sh)

/-- Runs steps one after the other. -/
def runSteps (depth : Nat) : List Step → State → List Record × State
  | [], sh => ([], sh)
  | s :: ss, sh =>
    let (r, sh) := runStep depth s sh
    let (rs, sh) := runSteps depth ss sh
    (r :: rs, sh)

/-- The records of a scenario that starts with an empty shell. -/
def run (steps : List Step) : List Record :=
  (runSteps (Step.weightAll steps + 1) steps .empty).1

end AppShell.Scenario
