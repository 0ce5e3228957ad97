import VolBacktest.Backtest.Result
import VolBacktest.Json.Fields

/-!
# Results in documents

How results and the views of them are written, and how results are read. The three parts of a result
may be left out; the instrument of a holding is any object.
-/

namespace VolBacktest

open Json

namespace MeasurePoint

def json (point : MeasurePoint) : Json :=
  .object [("date", .date point.date), ("value", .float point.value)]

def reader : Reader MeasurePoint :=
  (MeasurePoint.mk <$> Fields.required "date" .date <*> .required "value" .number).reader
    "MeasurePoint"

end MeasurePoint

namespace Holding

def json (holding : Holding) : Json :=
  .object [("quantity", .float holding.quantity),
    ("instrument", .object holding.instrument.entries)]

def reader : Reader Holding :=
  (Holding.mk <$> Fields.required "quantity" .number
    <*> .required "instrument" (Reader.sortedMap .any)).reader "Holding"

end Holding

namespace Snapshot

def json (snapshot : Snapshot) : Json :=
  .object [("date", .date snapshot.date),
    ("positions", .array (snapshot.positions.map Holding.json))]

def reader : Reader Snapshot :=
  (Snapshot.mk <$> Fields.required "date" .date
    <*> .required "positions" (Reader.list Holding.reader)).reader "PortfolioSnapshot"

end Snapshot

namespace Transaction

def json (transaction : Transaction) : Json :=
  .object [("type", .string transaction.kind),
    ("trades", .array (transaction.trades.map Holding.json))]

def reader : Reader Transaction :=
  (Transaction.mk <$> Fields.required "type" .string
    <*> .required "trades" (Reader.list Holding.reader)).reader "Transaction"

end Transaction

namespace TransactionBatch

def json (batch : TransactionBatch) : Json :=
  .object [("date", .date batch.date),
    ("transactions", .array (batch.transactions.map Transaction.json))]

def reader : Reader TransactionBatch :=
  (TransactionBatch.mk <$> Fields.required "date" .date
    <*> .required "transactions" (Reader.list Transaction.reader)).reader "TransactionBatch"

end TransactionBatch

namespace BacktestResult

def json (result : BacktestResult) : Json :=
  .object [
    ("risks", .object (result.risks.entries.map fun (name, points) =>
      (name, .array (points.map MeasurePoint.json)))),
    ("portfolio", .array (result.portfolio.map Snapshot.json)),
    ("transactions", .array (result.transactions.map TransactionBatch.json))]

def reader : Reader BacktestResult :=
  (BacktestResult.mk
    <$> Fields.defaulted "risks" (Reader.sortedMap (Reader.list MeasurePoint.reader)) .empty
    <*> .defaulted "portfolio" (Reader.list Snapshot.reader) []
    <*> .defaulted "transactions" (Reader.list TransactionBatch.reader) []).reader
      "RawBacktestResult"

end BacktestResult

/-- An object from dates to numbers. -/
def seriesJson (series : SortedMap Date Binary64) : Json :=
  .object (series.entries.map fun (date, value) => (date.text, .float value))

def PositionRow.json (row : PositionRow) : Json :=
  .object [("date", .date row.date), ("quantity", .float row.quantity),
    ("instrument", .object row.instrument.entries)]

def TradeRow.json (row : TradeRow) : Json :=
  .object [("date", .date row.date), ("quantity", .float row.quantity),
    ("transaction_type", .string row.kind), ("instrument", .object row.instrument.entries)]

end VolBacktest
