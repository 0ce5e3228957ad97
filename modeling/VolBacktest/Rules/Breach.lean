import VolBacktest.Diagnostic
import VolBacktest.Strategy.Location
import VolBacktest.Text.Quoted

/-!
# Breaches of the engine's rules

One constructor for each rule that a strategy can break, with what the report says about it. The
codes beginning with `V` concern the shape of the strategy, those beginning with `T` a single
leaf.
-/

namespace VolBacktest

/-- Numbers in messages never have an exponent, and integral ones no point. Of two equally near
decimals the greater one is written. -/
def messageNumberStyle : NumberStyle where
  tie := .up
  positional _ := true
  keepsPoint := false

def maxTriggers : Nat := 3

inductive Breach where
  | initialPositions (count : Nat)
  | tooManyTriggers (count : Nat)
  | topLevelKind (kind : TriggerKind)
  | childCount (count : Nat)
  | dateChildCount (count : Nat)
  | portfolioChildCount (count : Nat)
  /-- A portfolio child that does not compare the number of positions with zero. -/
  | portfolioGate (source : String) (level : Binary64)
  | unsupportedOwnAction (kind : ActionKind)
  | repeatedAction (kind : ActionKind) (count : Nat)
  | actionCount (kind : TriggerKind) (count : Nat)
  | enterDuration (frequency : String) (duration : Option String)
  | enterInstrument (kind : InstrumentKind)
  | enterUnsized
  | hedgeDuration (frequency duration : Option String)
  | hedgeRisk (risk : RiskMeasure)
  | hedgeFrequency (frequency : Option String)
  | unsupportedAction (kind : ActionKind)
deriving DecidableEq

namespace Breach

def code : Breach → String
  | initialPositions _ => "V001"
  | tooManyTriggers _ => "V002"
  | topLevelKind _ => "V003"
  | childCount _ => "V004"
  | dateChildCount _ => "V005"
  | portfolioChildCount _ => "V006"
  | portfolioGate _ _ => "V007"
  | unsupportedOwnAction _ => "V008"
  | repeatedAction _ _ => "V009"
  | actionCount _ _ => "T001"
  | enterDuration _ _ => "T002"
  | enterInstrument _ => "T003"
  | enterUnsized => "T004"
  | hedgeDuration _ _ => "T005"
  | hedgeRisk _ => "T006"
  | hedgeFrequency _ => "T007"
  | unsupportedAction _ => "T008"

def message : Breach → String
  | initialPositions count =>
    "initial_portfolio must be empty, found " ++ toString count ++ " position(s)"
  | tooManyTriggers count =>
    "Maximum of " ++ toString maxTriggers ++ " triggers, found " ++ toString count
  | topLevelKind kind =>
    "Only AggregateTrigger and PeriodicTrigger supported at top level, found " ++ kind.name
  | childCount count =>
    "AggregateTrigger must be composed of 2 triggers, found " ++ toString count
  | dateChildCount count =>
    "AggregateTrigger must contain 1 DateTrigger, found " ++ toString count
  | portfolioChildCount count =>
    "AggregateTrigger must contain 1 PortfolioTrigger, found " ++ toString count
  | portfolioGate source level =>
    "PortfolioTrigger.trigger_requirements must have data_source = '" ++ portfolioLength ++
      "' and trigger_level = 0, found data_source = '" ++ source ++ "' and trigger_level = " ++
      String.ofList (messageNumberStyle.render level)
  | unsupportedOwnAction kind =>
    "actions must be one of EnterPositionQuantityScaledAction, HedgeAction, " ++
      "ExitPositionAction, found " ++ kind.name
  | repeatedAction kind count =>
    "There are multiple actions of the same type: " ++ kind.name ++ " x" ++ toString count
  | actionCount kind count =>
    "All triggers must contain only 1 action, " ++ kind.name ++ " has " ++ toString count
  | enterDuration frequency duration =>
    "EnterPositionQuantityScaledAction: PeriodicTrigger frequency must be the same as " ++
      "trade_duration ('" ++ frequency ++ "' vs " ++ Text.quotedOption duration ++ ")"
  | enterInstrument kind =>
    "EnterPositionQuantityScaledAction: Only EqOption or EqVarianceSwap supported, found " ++
      kind.tag
  | enterUnsized =>
    "EnterPositionQuantityScaledAction trade_quantity or trade_quantity_type is None"
  | hedgeDuration frequency duration =>
    "HedgeAction: trigger frequency must be the same as trade_duration (" ++
      Text.quotedOption frequency ++ " vs " ++ Text.quotedOption duration ++ ")"
  | hedgeRisk risk => "HedgeAction: risk type must be EqDelta, found " ++ risk.name
  | hedgeFrequency frequency =>
    "HedgeAction: frequency must be '" ++ businessDay ++ "', found " ++
      Text.quotedOption frequency
  | unsupportedAction kind => "Unsupported action type '" ++ kind.name ++ "'"

end Breach

/-- A breach and the place it concerns, if it concerns a single one. -/
structure Violation where
  breach : Breach
  location : Option Location
deriving DecidableEq

def Violation.diagnostic (violation : Violation) : Diagnostic where
  phase := .validate
  code := violation.breach.code
  message := violation.breach.message
  path := violation.location.map Location.path

end VolBacktest
