import VolBacktest.Calendar.Date
import VolBacktest.Json.Value

/-!
# Results of a run

What the engine gives back, and tabular views of it. The views only rearrange: a series is indexed
by its dates, with the last value reported for a date, and a history has one row for each holding.
-/

namespace VolBacktest

/-- The value of a measure on a date. -/
structure MeasurePoint where
  date : Date
  value : Binary64
deriving DecidableEq

/-- A quantity of one instrument, held or traded. -/
structure Holding where
  quantity : Binary64
  instrument : SortedMap String Json
deriving DecidableEq

structure Snapshot where
  date : Date
  positions : List Holding
deriving DecidableEq

structure Transaction where
  kind : String
  trades : List Holding
deriving DecidableEq

structure TransactionBatch where
  date : Date
  transactions : List Transaction
deriving DecidableEq

/-- What an engine answers with. All values and quantities are finite, see `Binary64`. -/
structure BacktestResult where
  /-- The points of each measure, in the order reported. -/
  risks : SortedMap String (List MeasurePoint)
  portfolio : List Snapshot
  transactions : List TransactionBatch
deriving DecidableEq

/-- The measures that the engine reports under well-known names. -/
inductive Measure where
  | pnl
  | pnlSpot
  | pnlVol
  | pnlCarry
  | pnlUnexplained
  | delta
  | gamma
  | vega
deriving DecidableEq

def Measure.name : Measure → String
  | pnl => "PNL"
  | pnlSpot => "PNL_spot"
  | pnlVol => "PNL_vol"
  | pnlCarry => "PNL_carry"
  | pnlUnexplained => "PNL_unexplained"
  | delta => "delta"
  | gamma => "gamma"
  | vega => "vega"

/-- One position on one date. -/
structure PositionRow where
  date : Date
  quantity : Binary64
  instrument : SortedMap String Json
deriving DecidableEq

/-- One trade of one transaction. -/
structure TradeRow where
  date : Date
  quantity : Binary64
  kind : String
  instrument : SortedMap String Json
deriving DecidableEq

namespace BacktestResult

def empty : BacktestResult := ⟨.empty, [], []⟩

instance : Inhabited BacktestResult := ⟨empty⟩

/-- The series under a name by date, if the engine has reported it. -/
def series (result : BacktestResult) (name : String) : Option (SortedMap Date Binary64) :=
  (result.risks.get? name).map fun points =>
    .ofList (points.map fun point => (point.date, point.value))

def measureSeries (result : BacktestResult) (measure : Measure) :
    Option (SortedMap Date Binary64) :=
  result.series measure.name

def portfolioHistory (result : BacktestResult) : List PositionRow :=
  result.portfolio.flatMap fun snapshot =>
    snapshot.positions.map fun holding => ⟨snapshot.date, holding.quantity, holding.instrument⟩

def tradeHistory (result : BacktestResult) : List TradeRow :=
  result.transactions.flatMap fun batch =>
    batch.transactions.flatMap fun transaction =>
      transaction.trades.map fun holding =>
        ⟨batch.date, holding.quantity, transaction.kind, holding.instrument⟩

end BacktestResult

end VolBacktest
