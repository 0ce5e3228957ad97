import VolBacktest.Config.Basic
import VolBacktest.Action.Document

/-!
# Configurations in documents

All members of a configuration are written, absent values as null. When one is read, the values that
may be null may be left out as well.
-/

namespace VolBacktest

open Json

namespace SignalItem

def json (item : SignalItem) : Json :=
  .object [("date", .date item.date), ("value", .bool item.value)]

def reader : Reader SignalItem :=
  (SignalItem.mk <$> Fields.required "date" .date <*> .required "value" .bool).reader "SignalItem"

end SignalItem

namespace HedgeFrequency

def json (frequency : HedgeFrequency) : Json := .string frequency.label

def reader : Reader HedgeFrequency := .oneOf label [daily]

end HedgeFrequency

namespace DeltaHedge

def json (hedge : DeltaHedge) : Json := .object [("frequency", hedge.frequency.json)]

def reader : Reader DeltaHedge :=
  (DeltaHedge.mk <$> Fields.required "frequency" HedgeFrequency.reader).reader
    "DeltaHedgeParameters"

end DeltaHedge

namespace Config

def instrumentsJson (instruments : List Instrument) : Json :=
  .array (instruments.map Instrument.json)

def members (config : Config) : List (String × Json) := [
  ("underlier_list", .ofOption instrumentsJson config.instruments),
  ("roll_frequency", .ofOption .string config.rollFrequency),
  ("trade_quantity", .ofOption .float config.quantity),
  ("trade_quantity_type", .ofOption QuantityType.json config.quantityType),
  ("trade_in_signals", .array (config.tradeIn.map SignalItem.json)),
  ("trade_out_signals", .array (config.tradeOut.map SignalItem.json)),
  ("hedge", .ofOption DeltaHedge.json config.hedge),
  ("index_initial_value", .float config.initialValue)]

def json (config : Config) : Json := .object config.members

def text (config : Config) : String := config.json.text

/-- The name of the structure in messages. -/
def typeName : String := "CompiledConfig"

def fieldsOf : Fields Config :=
  Config.mk
    <$> .optional "underlier_list" (Reader.list Instrument.reader)
    <*> .optional "roll_frequency" .string
    <*> .optional "trade_quantity" .number
    <*> .optional "trade_quantity_type" QuantityType.reader
    <*> .required "trade_in_signals" (Reader.list SignalItem.reader)
    <*> .required "trade_out_signals" (Reader.list SignalItem.reader)
    <*> .optional "hedge" DeltaHedge.reader
    <*> .required "index_initial_value" .number

def reader : Reader Config := fieldsOf.reader typeName

end Config

end VolBacktest
