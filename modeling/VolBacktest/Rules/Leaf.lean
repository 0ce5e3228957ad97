import VolBacktest.Rules.Shape
import VolBacktest.Strategy.Leaf

/-!
# Rules for leaves

A leaf has exactly one action, which the engine has to support. A position is entered in equity
volatility, with a size, and for the period of a periodic trigger; a hedge is a daily hedge of
delta, for the period of its trigger.
-/

namespace VolBacktest

/-- The rules for an enter action of a trigger. Of several unsuitable instruments the first is
named. -/
def EnterAction.breaches (trigger : Trigger) (action : EnterAction) : List Breach :=
  let duration :=
    match trigger with
    | .periodic t =>
      if action.duration = some t.requirement then []
      else [.enterDuration t.requirement action.duration]
    | _ => []
  let instrument :=
    match action.instruments.find? fun instrument => !instrument.kind.isEquityVol with
    | some instrument => [.enterInstrument instrument.kind]
    | none => []
  let size :=
    if action.quantity.isNone ∨ action.quantityType.isNone then [.enterUnsized] else []
  duration ++ instrument ++ size

/-- The rules for a hedge of a trigger. -/
def HedgeAction.breaches (trigger : Trigger) (action : HedgeAction) : List Breach :=
  let frequency := trigger.frequency
  let duration :=
    if frequency = none ∨ frequency ≠ action.duration then
      [.hedgeDuration frequency action.duration]
    else []
  let risk := if action.risk = .eqDelta then [] else [.hedgeRisk action.risk]
  let period := if frequency = some businessDay then [] else [.hedgeFrequency frequency]
  duration ++ risk ++ period

/-- The rules for one action of a trigger. -/
def Action.breaches (trigger : Trigger) : Action → List Breach
  | .enter action => action.breaches trigger
  | .hedge action => action.breaches trigger
  | .exit => []
  | .addTrade _ => [.unsupportedAction .addTrade]
  | .rebalance _ => [.unsupportedAction .rebalance]

/-- The rules for a trigger that is a leaf. -/
def Trigger.leafBreaches (trigger : Trigger) : List Breach :=
  (if trigger.actions.length = 1 then []
    else [.actionCount trigger.kind trigger.actions.length]) ++
    trigger.actions.flatMap (Action.breaches trigger)

def Leaf.violations (leaf : Leaf) : List Violation :=
  leaf.trigger.leafBreaches.map (·.at leaf.location)

namespace Strategy

def leafViolations (strategy : Strategy) : List Violation :=
  strategy.leaves.flatMap Leaf.violations

/-- All breaches of the engine's rules, those of the shape of the strategy first. -/
def violations (strategy : Strategy) : List Violation :=
  strategy.shapeViolations ++ strategy.leafViolations

def diagnostics (strategy : Strategy) : List Diagnostic :=
  strategy.violations.map Violation.diagnostic

/-- Whether the engine accepts the strategy as it is. -/
def isSupported (strategy : Strategy) : Bool := strategy.violations.isEmpty

end Strategy

end VolBacktest
