import VolBacktest.Proofs.Json.Depth
import VolBacktest.Strategy.Document

/-!
# Room for strategy documents

What the readers of the parts of a strategy accept does not depend on the room for containers, as long as
there is enough. The reader of triggers is built from itself, one level of nesting after the other; each
level opens a container, so neither does it depend on the number of levels, as long as there are more than
containers: `Trigger.agree_readerWithin`.
-/

namespace VolBacktest

open Json

variable (depth : Nat)

theorem Instrument.agree_reader : reader.Agree depth reader := by
  have kind : InstrumentKind.reader.Agree depth InstrumentKind.reader :=
    (Reader.agree_string depth).map InstrumentKind.ofTag
  have first := Fields.agree_required tagName kind
  have fields : fieldsOf.Agree depth fieldsOf := (first.map _).seq (Fields.agree_others [tagName] depth)
  exact fields.objectReader "Priceable"

theorem RiskMeasure.agree_reader : reader.Agree depth reader := Reader.agree_plainVariant _ depth

theorem QuantityType.agree_reader : reader.Agree depth reader := Reader.agree_plainVariant _ depth

theorem Direction.agree_reader : reader.Agree depth reader := Reader.agree_plainVariant _ depth

namespace Action

theorem agree_fieldsOf (kind : ActionKind) : (fieldsOf kind).Agree depth (fieldsOf kind) := by
  have instruments := Fields.agree_required "priceables" (Instrument.agree_reader depth).list
  have duration : durationField.Agree depth durationField :=
    Fields.agree_defaulted _ (Reader.agree_string depth).nullable none
  cases kind with
  | enter =>
      have quantity :=
        Fields.agree_defaulted "trade_quantity" (Reader.agree_number depth).nullable none
      have quantityType :=
        Fields.agree_defaulted "trade_quantity_type" (QuantityType.agree_reader depth).nullable none
      exact (((instruments.map _).seq duration).seq quantity).seq quantityType
  | hedge =>
      have risk := Fields.agree_required "risk" (RiskMeasure.agree_reader depth)
      exact (risk.map _).seq duration
  | exit => exact Fields.agree_pure exit depth
  | addTrade => exact (instruments.map _).seq duration
  | rebalance =>
      have instrument := Fields.agree_required "priceable" (Instrument.agree_reader depth)
      have size := Fields.agree_required "size_parameter" (Reader.agree_string depth)
      exact (instrument.map _).seq size

theorem agree_reader : reader.Agree depth reader :=
  (Reader.agree_tagged ActionKind.name ActionKind.name "Action" (agree_fieldsOf depth) _).mono
    (Nat.le_succ depth)

end Action

namespace Trigger

theorem agree_levelReader (typeName : String) :
    (levelReader typeName).Agree depth (levelReader typeName) := by
  have source := Fields.agree_required "data_source" (Reader.agree_string depth)
  have level := Fields.agree_required "trigger_level" (Reader.agree_number depth)
  have direction := Fields.agree_required "direction" (Direction.agree_reader depth)
  exact (((source.map _).seq level).seq direction).reader typeName

theorem agree_riskReader : riskReader.Agree depth riskReader := by
  have risk := Fields.agree_required "risk" (RiskMeasure.agree_reader depth)
  have level := Fields.agree_required "trigger_level" (Reader.agree_number depth)
  have direction := Fields.agree_required "direction" (Direction.agree_reader depth)
  exact (((risk.map _).seq level).seq direction).reader "RiskTriggerRequirements"

variable {depth}

theorem agree_guardedFields {ρ : Type} {requirement other : Reader ρ}
    (h : requirement.Agree depth other) (make : ρ → List Action → Trigger) :
    (guardedFields requirement make).Agree depth (guardedFields other make) := by
  have first := Fields.agree_required "trigger_requirements" h
  have actions := Fields.agree_defaulted "actions" (Action.agree_reader depth).list []
  exact (first.map make).seq actions

theorem agree_fieldsOf {child other : Reader Trigger} (h : child.Agree depth other)
    (kind : TriggerKind) : (fieldsOf child kind).Agree depth (fieldsOf other kind) := by
  cases kind with
  | date =>
      have dates := Fields.agree_required "dates" (Reader.agree_date depth).list
      exact agree_guardedFields (dates.reader _) _
  | portfolio => exact agree_guardedFields (agree_levelReader depth _) _
  | periodic =>
      have frequency := Fields.agree_required "frequency" (Reader.agree_string depth)
      exact agree_guardedFields (frequency.reader _) _
  | aggregate =>
      have children := Fields.agree_required "triggers" h.list
      exact agree_guardedFields (children.reader _) _
  | market => exact agree_guardedFields (agree_levelReader depth _) _
  | risk => exact agree_guardedFields (agree_riskReader depth) _

/-- By induction on the containers: when one has been opened there is one level less, for one container
less. -/
theorem agree_readerWithin {levels more : Nat} (enough : depth < levels) (alsoEnough : depth < more) :
    (readerWithin levels).Agree depth (readerWithin more) := by
  induction depth generalizing levels more with
  | zero =>
      obtain ⟨levels, rfl⟩ := Nat.exists_eq_add_of_le' enough
      obtain ⟨more, rfl⟩ := Nat.exists_eq_add_of_le' alsoEnough
      intro mode tree room _ _ within fits _ _
      cases fits with
      | scalar | broken => exact .refl _
      | array | object => exact absurd within (Nat.not_succ_le_zero _)
  | succ depth ih =>
      obtain ⟨levels, rfl, left⟩ := exists_room enough
      obtain ⟨more, rfl, alsoLeft⟩ := exists_room alsoEnough
      exact Reader.agree_tagged TriggerKind.name (fun _ => "TriggerBase") "Trigger"
        (agree_fieldsOf (ih left alsoLeft)) _

end Trigger

end VolBacktest
