import VolBacktest.Action.Basic
import VolBacktest.Instrument.Document

/-!
# Actions in documents

An action is an object with its kind under `type` and its parameters after it, in a fixed order;
parameters that are absent are written as null. When an action is read, such parameters may be left
out.
-/

namespace VolBacktest

open Json

namespace QuantityType

def json (type : QuantityType) : Json := .string type.name

def reader : Reader QuantityType := .oneOf name [quantity, notional, nav, vega, gamma]

end QuantityType

namespace RiskMeasure

def json (measure : RiskMeasure) : Json := .string measure.name

def reader : Reader RiskMeasure := .plainVariant fun name => .ok (ofName name)

end RiskMeasure

namespace Action

/-- The members beside the tag. -/
def members : Action → List (String × Json)
  | enter action => [
      ("priceables", .array (action.instruments.map Instrument.json)),
      ("trade_duration", .ofOption .string action.duration),
      ("trade_quantity", .ofOption .float action.quantity),
      ("trade_quantity_type", .ofOption QuantityType.json action.quantityType)]
  | hedge action => [
      ("risk", action.risk.json),
      ("trade_duration", .ofOption .string action.duration)]
  | exit => []
  | addTrade action => [
      ("priceables", .array (action.instruments.map Instrument.json)),
      ("trade_duration", .ofOption .string action.duration)]
  | rebalance action => [
      ("priceable", action.instrument.json),
      ("size_parameter", .string action.sizeParameter)]

def json (action : Action) : Json :=
  .object ((tagName, .string action.kind.name) :: action.members)

/-- A text that may be null or left out. -/
def durationField : Fields (Option String) :=
  .defaulted "trade_duration" (Reader.nullable .string) none

/-- The fields of each kind of action. -/
def fieldsOf : ActionKind → Fields Action
  | .enter =>
    (fun instruments duration quantity quantityType =>
        enter ⟨instruments, duration, quantity, quantityType⟩)
      <$> .required "priceables" (Reader.list Instrument.reader)
      <*> durationField
      <*> .defaulted "trade_quantity" (Reader.nullable .number) none
      <*> .defaulted "trade_quantity_type" (Reader.nullable QuantityType.reader) none
  | .hedge =>
    (fun risk duration => hedge ⟨risk, duration⟩)
      <$> .required "risk" RiskMeasure.reader <*> durationField
  | .exit => pure exit
  | .addTrade =>
    (fun instruments duration => addTrade ⟨instruments, duration⟩)
      <$> .required "priceables" (Reader.list Instrument.reader) <*> durationField
  | .rebalance =>
    (fun instrument sizeParameter => rebalance ⟨instrument, sizeParameter⟩)
      <$> .required "priceable" Instrument.reader <*> .required "size_parameter" .string

/-- The tags in the order of their indices. -/
def bodies : List (String × TaggedBody Action) :=
  [ActionKind.enter, .hedge, .exit, .addTrade, .rebalance].map fun kind =>
    (kind.name, ⟨kind.name, fieldsOf kind⟩)

def reader : Reader Action := .tagged "Action" bodies

end Action

end VolBacktest
