import VolBacktest.Strategy.Basic

/-!
# Locations in a strategy

The places that a report can point at. A location is written as a path of member names and indices.
-/

namespace VolBacktest

inductive Location where
  | initialPortfolio
  | triggers
  /-- A trigger of the strategy. -/
  | trigger (index : Nat)
  /-- A child of an aggregate trigger of the strategy. -/
  | child (index position : Nat)
  /-- An action of a trigger of the strategy. -/
  | action (index position : Nat)
deriving DecidableEq

namespace Location

/-- `[index]`. -/
def subscript (index : Nat) : String := "[" ++ toString index ++ "]"

def path : Location → String
  | initialPortfolio => "initial_portfolio"
  | triggers => "triggers"
  | trigger i => "triggers" ++ subscript i
  | child i j => "triggers" ++ subscript i ++ ".triggers" ++ subscript j
  | action i k => "triggers" ++ subscript i ++ ".actions" ++ subscript k

end Location

end VolBacktest
