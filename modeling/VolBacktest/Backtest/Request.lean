import VolBacktest.Config.Document

/-!
# Backtest requests

A request is all that the engine needs for one run: the configuration and the settings beside it.
In a document the members of the configuration stand among those of the request.
-/

namespace VolBacktest

open Json

/-- How positions are opened. -/
inductive TradeInMethod where
  | fixedRoll
deriving DecidableEq

namespace TradeInMethod

def name : TradeInMethod → String
  | fixedRoll => "fixedRoll"

def json (method : TradeInMethod) : Json := .string method.name

def reader : Reader TradeInMethod := .oneOf name [fixedRoll]

end TradeInMethod

/-- What is said about a run beside its strategy and its dates. -/
structure BacktestSettings where
  name : String
  tradeInMethod : TradeInMethod
deriving DecidableEq

namespace BacktestSettings

def default : BacktestSettings := ⟨"Flow Vol Backtest", .fixedRoll⟩

def json (settings : BacktestSettings) : Json :=
  .object [("name", .string settings.name), ("trade_in_method", settings.tradeInMethod.json)]

def reader : Reader BacktestSettings :=
  (BacktestSettings.mk
    <$> Fields.defaulted "name" .string default.name
    <*> .defaulted "trade_in_method" TradeInMethod.reader default.tradeInMethod).reader
      "BacktestSettings"

def ofText (text : String) : Read BacktestSettings := Json.read reader text

end BacktestSettings

structure BacktestRequest where
  name : String
  tradeInMethod : TradeInMethod
  config : Config
  first : Date
  last : Date
deriving DecidableEq

namespace BacktestRequest

def ofConfig (config : Config) (settings : BacktestSettings) (first last : Date) :
    BacktestRequest where
  name := settings.name
  tradeInMethod := settings.tradeInMethod
  config := config
  first := first
  last := last

def json (request : BacktestRequest) : Json :=
  .object ([("name", .string request.name), ("trade_in_method", request.tradeInMethod.json)] ++
    request.config.members ++ [("start", .date request.first), ("end", .date request.last)])

/-- The members that belong to the request itself. -/
def ownNames : List String := ["name", "trade_in_method", "start", "end"]

/-- The members of the request itself; the others are read through for the configuration. -/
def ownFields : Fields (Config → BacktestRequest) :=
  (fun name method first last _ config => ⟨name, method, config, first, last⟩)
    <$> .required "name" .string
    <*> .required "trade_in_method" TradeInMethod.reader
    <*> .required "start" .date
    <*> .required "end" .date
    <*> .others ownNames

/-- The configuration is read when the request has been read through, from what has been kept. -/
def reader : Reader BacktestRequest
  | mode, budget, .object members stop => opened budget fun rest => do
    let (entries, ending) := Fields.objectContent members stop
    let make ← ownFields.readFrom "BacktestRequest" mode rest (.members entries) ending
    let kept := entries.filter fun entry => !ownNames.contains entry.1
    let config ← Config.fieldsOf.readFrom Config.typeName .kept rest (.members kept) none
    .ok (make config)
  | _, _, tree => tree.mismatch "struct BacktestRequest"

end BacktestRequest

end VolBacktest
