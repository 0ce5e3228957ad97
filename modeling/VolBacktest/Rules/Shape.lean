import VolBacktest.Rules.Breach
import VolBacktest.Tally
import VolBacktest.Trigger.Signal

/-!
# Rules for the shape of a strategy

The engine takes at most three triggers, all periodic or aggregate, and no initial positions. An
aggregate combines one date trigger with one trigger that compares the number of open positions with
zero. Of each kind of action there may be one among the own actions of the triggers.

Every rule is applied whatever the others say, rule by rule in the order of their codes, except that
the four rules for aggregates are applied together to one aggregate after the other.
-/

namespace VolBacktest

/-- A breach in a single place. -/
def Breach.at (breach : Breach) (location : Location) : Violation := ⟨breach, some location⟩

/-- The breach, unless the condition holds. -/
def reportUnless (condition : Prop) [Decidable condition] (violation : Violation) :
    List Violation :=
  if condition then [] else [violation]

/-- A top-level trigger may only be periodic or an aggregate. -/
def TriggerKind.isTopLevel : TriggerKind → Bool
  | .periodic | .aggregate => true
  | .date | .portfolio | .market | .risk => false

/-- The condition compares the number of open positions with zero. -/
def LevelRequirement.IsPortfolioGate (requirement : LevelRequirement) : Prop :=
  requirement.source = portfolioLength ∧ requirement.level.isZero

instance (requirement : LevelRequirement) : Decidable requirement.IsPortfolioGate :=
  inferInstanceAs (Decidable (_ ∧ _))

namespace Trigger

def topLevelViolations (index : Nat) (trigger : Trigger) : List Violation :=
  reportUnless trigger.kind.isTopLevel ((Breach.topLevelKind trigger.kind).at (.trigger index))

/-- The condition of a portfolio child. -/
def gateViolations (index position : Nat) : Trigger → List Violation
  | portfolio t =>
    reportUnless t.requirement.IsPortfolioGate
      ((Breach.portfolioGate t.requirement.source t.requirement.level).at (.child index position))
  | _ => []

/-- What an aggregate is composed of. -/
def compositionViolations (index : Nat) : Trigger → List Violation
  | aggregate children _ =>
    let parts := AggregateParts.ofChildren children
    reportUnless (children.length = 2) ((Breach.childCount children.length).at (.trigger index)) ++
      reportUnless (parts.dates.length = 1)
        ((Breach.dateChildCount parts.dates.length).at (.trigger index)) ++
      reportUnless (parts.portfolios.length = 1)
        ((Breach.portfolioChildCount parts.portfolios.length).at (.trigger index)) ++
      children.zipIdx.flatMap fun (child, position) => child.gateViolations index position
  | _ => []

def ownActionViolations (index : Nat) (trigger : Trigger) : List Violation :=
  trigger.actions.zipIdx.flatMap fun (action, position) =>
    reportUnless action.isSupported
      ((Breach.unsupportedOwnAction action.kind).at (.action index position))

end Trigger

/-- The kinds of action that have been counted more than once, and how often. Every kind in the order of
the tally has a count. -/
def Tally.repeatedKindViolations (tally : Tally ActionKind) : List Violation :=
  tally.order.flatMap fun kind =>
    match tally.count? kind with
    | some count => reportUnless (count ≤ 1) ⟨.repeatedAction kind count, none⟩
    | none => []

namespace Strategy

/-- The kinds of the own actions of all triggers. -/
def ownActionKinds (strategy : Strategy) : List ActionKind :=
  strategy.triggers.flatMap fun trigger => trigger.actions.map Action.kind

/-- The kinds of action that occur more than once, and how often. -/
def repeatedKindViolations (strategy : Strategy) : List Violation :=
  (Tally.ofList strategy.ownActionKinds).repeatedKindViolations

def shapeViolations (strategy : Strategy) : List Violation :=
  let triggers := strategy.triggers.zipIdx
  reportUnless strategy.initialPortfolio.isEmpty
      ((Breach.initialPositions strategy.initialPortfolio.length).at .initialPortfolio) ++
    reportUnless (strategy.triggers.length ≤ maxTriggers)
      ((Breach.tooManyTriggers strategy.triggers.length).at .triggers) ++
    triggers.flatMap (fun (trigger, index) => trigger.topLevelViolations index) ++
    triggers.flatMap (fun (trigger, index) => trigger.compositionViolations index) ++
    triggers.flatMap (fun (trigger, index) => trigger.ownActionViolations index) ++
    strategy.repeatedKindViolations

end Strategy

end VolBacktest
