import VolBacktest.Strategy.Basic

/-!
# Assembling a strategy

All parts of a strategy are public, so one can be put together without any text, and triggers and
positions can be changed where they stand. The edits are the steps of such a session: each stands for
what a caller does to the lists and fields themselves, and none for a service of the engine, which sees
nothing but the strategies that arise. `EditError` is about the session as well and never part of a
report. An edit that does not apply leaves the strategy as it is.
-/

namespace VolBacktest

inductive Edit where
  | load (strategy : Strategy)
  | pushTrigger (trigger : Trigger)
  /-- Drops the last trigger, if there is one. -/
  | popTrigger
  | reverseTriggers
  | pushPosition (instrument : Instrument)
  | clearPortfolio
  | pushAction (index : Nat) (action : Action)
  | clearActions (index : Nat)
  | pushChild (index : Nat) (child : Trigger)
  | clearChildren (index : Nat)
  | setFrequency (index : Nat) (frequency : String)

inductive EditError where
  | noSuchTrigger
  | notAggregate
  | notPeriodic
deriving DecidableEq

def EditError.message : EditError → String
  | noSuchTrigger => "no such trigger"
  | notAggregate => "not an aggregate"
  | notPeriodic => "not periodic"

namespace Trigger

/-- The aggregate with its children changed. -/
def editChildren (edit : List Trigger → List Trigger) : Trigger → Except EditError Trigger
  | aggregate children actions => .ok (aggregate (edit children) actions)
  | _ => .error .notAggregate

def setFrequency (frequency : String) : Trigger → Except EditError Trigger
  | periodic t => .ok (periodic { t with requirement := frequency })
  | _ => .error .notPeriodic

end Trigger

namespace Strategy

/-- The strategy with one trigger changed. -/
def editTrigger (strategy : Strategy) (index : Nat) (edit : Trigger → Except EditError Trigger) :
    Except EditError Strategy :=
  match strategy.triggers[index]? with
  | none => .error .noSuchTrigger
  | some trigger =>
    (edit trigger).map fun edited =>
      { strategy with triggers := strategy.triggers.set index edited }

def edit (strategy : Strategy) : Edit → Except EditError Strategy
  | .load other => .ok other
  | .pushTrigger trigger => .ok { strategy with triggers := strategy.triggers ++ [trigger] }
  | .popTrigger => .ok { strategy with triggers := strategy.triggers.dropLast }
  | .reverseTriggers => .ok { strategy with triggers := strategy.triggers.reverse }
  | .pushPosition instrument =>
    .ok { strategy with initialPortfolio := strategy.initialPortfolio ++ [instrument] }
  | .clearPortfolio => .ok { strategy with initialPortfolio := [] }
  | .pushAction index action =>
    strategy.editTrigger index fun trigger =>
      .ok (trigger.withActions (trigger.actions ++ [action]))
  | .clearActions index => strategy.editTrigger index fun trigger => .ok (trigger.withActions [])
  | .pushChild index child => strategy.editTrigger index (·.editChildren (· ++ [child]))
  | .clearChildren index => strategy.editTrigger index (·.editChildren fun _ => [])
  | .setFrequency index frequency => strategy.editTrigger index (·.setFrequency frequency)

end Strategy

end VolBacktest
