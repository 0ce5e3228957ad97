import VolBacktest.Instrument.Basic

/-!
# Actions

What a trigger does when it fires: it enters a position of scaled size, hedges, exits, adds a
trade or rebalances. The engine executes the first three kinds; the others can be written down, so
that a strategy that uses them is refused with a reason.
-/

namespace VolBacktest

/-- What the size of a position is measured in. -/
inductive QuantityType where
  | quantity
  | notional
  | nav
  | vega
  | gamma
deriving DecidableEq

def QuantityType.name : QuantityType → String
  | quantity => "quantity"
  | notional => "notional"
  | nav => "NAV"
  | vega => "vega"
  | gamma => "gamma"

/-- The sensitivity that a hedge or a risk trigger looks at. Unknown measures are all `other`. -/
inductive RiskMeasure where
  | eqDelta
  | eqGamma
  | eqVega
  | other
deriving DecidableEq

namespace RiskMeasure

def name : RiskMeasure → String
  | eqDelta => "EqDelta"
  | eqGamma => "EqGamma"
  | eqVega => "EqVega"
  | other => "Other"

def ofName (name : String) : RiskMeasure :=
  if name = "EqDelta" then eqDelta
  else if name = "EqGamma" then eqGamma
  else if name = "EqVega" then eqVega
  else other

@[simp] theorem ofName_name (measure : RiskMeasure) : ofName measure.name = measure := by
  cases measure <;> decide

end RiskMeasure

structure EnterAction where
  instruments : List Instrument
  duration : Option String
  quantity : Option Binary64
  quantityType : Option QuantityType
deriving DecidableEq

structure HedgeAction where
  risk : RiskMeasure
  duration : Option String
deriving DecidableEq

structure AddTradeAction where
  instruments : List Instrument
  duration : Option String
deriving DecidableEq

structure RebalanceAction where
  instrument : Instrument
  sizeParameter : String
deriving DecidableEq

inductive Action where
  | enter (action : EnterAction)
  | hedge (action : HedgeAction)
  | exit
  | addTrade (action : AddTradeAction)
  | rebalance (action : RebalanceAction)
deriving DecidableEq

inductive ActionKind where
  | enter
  | hedge
  | exit
  | addTrade
  | rebalance
deriving DecidableEq

namespace ActionKind

def name : ActionKind → String
  | enter => "EnterPositionQuantityScaledAction"
  | hedge => "HedgeAction"
  | exit => "ExitPositionAction"
  | addTrade => "AddTradeAction"
  | rebalance => "RebalanceAction"

/-- Whether the engine can execute such actions at all. -/
def isSupported : ActionKind → Bool
  | enter | hedge | exit => true
  | addTrade | rebalance => false

end ActionKind

namespace Action

def kind : Action → ActionKind
  | enter _ => .enter
  | hedge _ => .hedge
  | exit => .exit
  | addTrade _ => .addTrade
  | rebalance _ => .rebalance

def isSupported (action : Action) : Bool := action.kind.isSupported

end Action

end VolBacktest
