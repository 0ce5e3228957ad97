import VolBacktest.Proofs.Documents.Strategies
import VolBacktest.Proofs.Json.Spacing
import VolBacktest.Proofs.Json.StructureLayout

/-!
# The layout of a strategy document

Four kinds of objects in a strategy document may have members that are not looked at: the strategy
itself, a trigger, its requirement and an action. `Strategy.schema` tells where these stand and which
names they know. Instruments keep all their members, so nothing can be added to them unnoticed.

Every reader of such a document respects the layout. For the reader of triggers this goes by induction on
the levels of nesting it was built with. A text that is laid out differently is therefore accepted exactly
if the first one is, and holds the same strategy.
-/

namespace VolBacktest

open Json

namespace Strategy

/-- The kinds of objects with members that are not looked at. -/
inductive Part where
  | strategy
  | trigger
  /-- The requirement of a trigger of this kind, if its tag names one. -/
  | requirement (kind : Option TriggerKind)
  | action

/-- The kind that the tag names, as far as it names one. -/
def kindOf {κ : Type} (name : κ → String) (kinds : List κ) (tag : Option Tree) : Option κ :=
  tag.bind fun tag => (Reader.tag (kinds.map fun kind => (name kind, kind)) .kept 0 tag).toOption

theorem kindOf_of_tag {κ α : Type} {name : κ → String} {make : κ → α} {kinds : List κ}
    {mode : Mode} {room : Nat} {tag : Tree} {value : α}
    (read : Reader.tag (kinds.map fun kind => (name kind, make kind)) mode room tag = .ok value) :
    ∃ kind, kindOf name kinds (some tag) = some kind ∧ make kind = value := by
  obtain ⟨kind, named, same⟩ := exists_kind_of_tag read
  exact ⟨kind, toOption_eq_some.mpr named, same⟩

def triggerKind : Option Tree → Option TriggerKind :=
  kindOf TriggerKind.name [.date, .portfolio, .periodic, .aggregate, .market, .risk]

def actionKind : Option Tree → Option ActionKind :=
  kindOf ActionKind.name [.enter, .hedge, .exit, .addTrade, .rebalance]

def requirementNames : TriggerKind → List String
  | .date => ["dates"]
  | .portfolio | .market => ["data_source", "trigger_level", "direction"]
  | .periodic => ["frequency"]
  | .aggregate => ["triggers"]
  | .risk => ["risk", "trigger_level", "direction"]

def actionNames : ActionKind → List String
  | .enter => ["priceables", "trade_duration", "trade_quantity", "trade_quantity_type"]
  | .hedge => ["risk", "trade_duration"]
  | .exit => []
  | .addTrade => ["priceables", "trade_duration"]
  | .rebalance => ["priceable", "size_parameter"]

/-- What the parts of a strategy document know, and where other parts stand in them. -/
def schema : Schema Part where
  names
    | .strategy, _ => ["initial_portfolio", "triggers"]
    | .trigger, _ => [tagName, "trigger_requirements", "actions"]
    | .requirement kind, _ => (kind.map requirementNames).getD []
    | .action, tag => tagName :: ((actionKind tag).map actionNames).getD []
  member
    | .strategy, _, "triggers" => .list .trigger
    | .trigger, tag, "trigger_requirements" => .part (.requirement (triggerKind tag))
    | .trigger, _, "actions" => .list .action
    | .requirement (some .aggregate), _, "triggers" => .list .trigger
    | _, _, _ => .value

end Strategy

open Strategy (schema)

namespace Instrument

theorem fieldsOf_eq_ok_iff {mode : Mode} {room index : Nat} {source : Source}
    {instrument : Instrument} :
    fieldsOf.read mode room source index = .ok instrument ↔
      ∃ kind, (Fields.required tagName InstrumentKind.reader).read mode room source index = .ok kind ∧
        ∃ values, (Fields.others [tagName]).read mode room source (index + 1) = .ok values ∧
          instrument = ⟨kind, .ofList values⟩ := by
  rw [fieldsOf, Fields.seq_eq_ok_iff]
  simp only [Fields.map_eq_ok_iff]
  constructor
  · rintro ⟨_, ⟨kind, read, rfl⟩, values, beside, same⟩
    exact ⟨kind, read, values, beside, same⟩
  · rintro ⟨kind, read, values, beside, same⟩
    exact ⟨_, ⟨kind, read, rfl⟩, values, beside, same⟩

/-- The members of an instrument are a map, whatever their order. -/
theorem respects_reader : reader.Respects schema .value := by
  refine Reader.respects_of_containers ?_ ?_
  · intro mode room items others stop _
    exact .of_refused (@not_mismatch_eq_ok _ "struct Priceable" (.array items stop))
      (@not_mismatch_eq_ok _ "struct Priceable" (.array others stop))
  · intro mode room members others stop relaid instrument
    rw [reader, Fields.objectReader_eq_ok_iff, Fields.objectReader_eq_ok_iff]
    refine exists_congr fun rest => and_congr_right ?_
    rintro rfl
    refine and_congr_right fun _ => relaid.object_iff fun entries values _ each => ?_
    have closed : ∀ name, ¬schema.Unknown (tagOf members) .value name := by rintro _ ⟨_, ⟨⟩, _⟩
    have kind : (Fields.required tagName InstrumentKind.reader).Respects schema
        fun name => schema.memberAt (tagOf members) (.ok name) .value :=
      Fields.respects_required ((Reader.scalar_string.map _).respects schema _)
    rw [Fields.readFrom_members_eq_ok_iff, Fields.readFrom_members_eq_ok_iff, fieldsOf_eq_ok_iff,
      fieldsOf_eq_ok_iff]
    refine and_congr (exists_congr fun value => and_congr ?_ ?_) (and_congr_left fun _ => ?_)
    · exact kind (fun _ name _ => each.slot (closed name)) value
    · exact Fields.exists_others_ofList_iff each closed (fun _ => rfl) [tagName] mode _ _ _
        (instrument = ⟨value, ·⟩)
    · exact each.skip_iff _

theorem respects_list : (Reader.list reader).Respects schema .value :=
  respects_reader.list fun _ _ => rfl

end Instrument

namespace Action

variable {tag : Tree}

theorem respects_duration {inside : String → Place Strategy.Part} :
    durationField.Respects schema inside :=
  Fields.respects_defaulted (Reader.scalar_string.respects schema _).nullable none

/-- There are no parts inside an action. -/
theorem respects_fieldsOf (kind : ActionKind) :
    (fieldsOf kind).Respects schema fun _ => .value := by
  have instruments : (Fields.required "priceables" (Reader.list Instrument.reader)).Respects schema
      fun _ => .value := Fields.respects_required Instrument.respects_list
  cases kind with
  | enter =>
      have quantity : (Fields.defaulted "trade_quantity" Reader.number.nullable none).Respects schema
          fun _ => .value :=
        Fields.respects_defaulted (Reader.scalar_number.respects schema _).nullable none
      have quantityType : (Fields.defaulted "trade_quantity_type" QuantityType.reader.nullable
          none).Respects schema fun _ => .value :=
        Fields.respects_defaulted (Reader.respects_plainVariant _).nullable none
      exact (((instruments.map _).seq respects_duration).seq quantity).seq quantityType
  | hedge =>
      have risk : (Fields.required "risk" RiskMeasure.reader).Respects schema fun _ => .value :=
        Fields.respects_required (Reader.respects_plainVariant _)
      exact (risk.map _).seq respects_duration
  | exit => exact Fields.respects_pure _
  | addTrade => exact (instruments.map _).seq respects_duration
  | rebalance =>
      have instrument : (Fields.required "priceable" Instrument.reader).Respects schema
          fun _ => .value := Fields.respects_required Instrument.respects_reader
      have size : (Fields.required "size_parameter" Reader.string).Respects schema
          fun _ => .value := Fields.respects_required (Reader.scalar_string.respects schema _)
      exact (instrument.map _).seq size

theorem names_fieldsOf (kind : ActionKind) : (fieldsOf kind).names = Strategy.actionNames kind := by
  cases kind <;> rfl

theorem describes : schema.Describes .action bodies where
  tagged _ := List.mem_cons_self
  names := by
    intro mode room tag body chosen
    obtain ⟨kind, named, rfl⟩ := Strategy.kindOf_of_tag chosen
    have found : Strategy.actionKind (some tag) = some kind := named
    simp only [schema, found, names_fieldsOf]
    rfl
  fields := by
    intro mode room tag body chosen
    obtain ⟨kind, -, rfl⟩ := Strategy.kindOf_of_tag chosen
    exact respects_fieldsOf kind

theorem respects_reader : reader.Respects schema (.part .action) :=
  Reader.respects_tagged describes _

end Action

namespace Trigger

variable {tag : Tree}

theorem respects_datesReader : datesReader.Respects schema (.part (.requirement (some .date))) := by
  have dates : (Reader.list Reader.date).Respects schema .value :=
    (Reader.scalar_date.respects schema .value).list fun _ _ => rfl
  exact Fields.respects_reader (fun _ => rfl) (fun _ => Fields.respects_required dates) _

theorem respects_frequencyReader :
    frequencyReader.Respects schema (.part (.requirement (some .periodic))) :=
  Fields.respects_reader (fun _ => rfl)
    (fun _ => Fields.respects_required (Reader.scalar_string.respects schema _)) _

/-- Levels of the market and of the portfolio are required in the same form. -/
theorem respects_levelReader {kind : TriggerKind}
    (names : Strategy.requirementNames kind = ["data_source", "trigger_level", "direction"])
    (inside : ∀ tag, schema.member (.requirement (some kind)) tag = fun _ => .value)
    (typeName : String) :
    (levelReader typeName).Respects schema (.part (.requirement (some kind))) := by
  refine Fields.respects_reader (fun _ => names) (fun tag => ?_) _
  rw [inside]
  have source : (Fields.required "data_source" Reader.string).Respects schema fun _ => .value :=
    Fields.respects_required (Reader.scalar_string.respects schema _)
  have level : (Fields.required "trigger_level" Reader.number).Respects schema fun _ => .value :=
    Fields.respects_required (Reader.scalar_number.respects schema _)
  have direction : (Fields.required "direction" Direction.reader).Respects schema fun _ => .value :=
    Fields.respects_required (Reader.respects_plainVariant _)
  exact ((source.map _).seq level).seq direction

theorem respects_riskReader : riskReader.Respects schema (.part (.requirement (some .risk))) := by
  refine Fields.respects_reader (fun _ => rfl) (fun tag => ?_) _
  have risk : (Fields.required "risk" RiskMeasure.reader).Respects schema fun _ => .value :=
    Fields.respects_required (Reader.respects_plainVariant _)
  have level : (Fields.required "trigger_level" Reader.number).Respects schema fun _ => .value :=
    Fields.respects_required (Reader.scalar_number.respects schema _)
  have direction : (Fields.required "direction" Direction.reader).Respects schema fun _ => .value :=
    Fields.respects_required (Reader.respects_plainVariant _)
  exact ((risk.map _).seq level).seq direction

theorem respects_childrenReader {child : Reader Trigger}
    (h : child.Respects schema (.part .trigger)) :
    (childrenReader child).Respects schema (.part (.requirement (some .aggregate))) := by
  have children : (Reader.list child).Respects schema (.list .trigger) := h.list fun _ _ => rfl
  exact Fields.respects_reader (fun _ => rfl) (fun _ => Fields.respects_required children) _

theorem respects_guardedFields {ρ : Type} {requirement : Reader ρ}
    {make : ρ → List Action → Trigger} {kind : TriggerKind}
    (named : Strategy.triggerKind (some tag) = some kind)
    (h : requirement.Respects schema (.part (.requirement (some kind)))) :
    (guardedFields requirement make).Respects schema (schema.member .trigger (some tag)) := by
  have place : schema.member .trigger (some tag) "trigger_requirements" =
      .part (.requirement (some kind)) := by
    rw [← named]
    rfl
  have first : (Fields.required "trigger_requirements" requirement).Respects schema
      (schema.member .trigger (some tag)) := Fields.respects_required (place ▸ h)
  have actions : (Reader.list Action.reader).Respects schema (.list .action) :=
    Action.respects_reader.list fun _ _ => rfl
  have second : (Fields.defaulted "actions" (Reader.list Action.reader) []).Respects schema
      (schema.member .trigger (some tag)) := Fields.respects_defaulted actions []
  exact (first.map make).seq second

theorem respects_fieldsOf {child : Reader Trigger} (h : child.Respects schema (.part .trigger))
    {kind : TriggerKind} (named : Strategy.triggerKind (some tag) = some kind) :
    (fieldsOf child kind).Respects schema (schema.member .trigger (some tag)) := by
  cases kind with
  | date => exact respects_guardedFields named respects_datesReader
  | portfolio => exact respects_guardedFields named (respects_levelReader rfl (fun _ => rfl) _)
  | periodic => exact respects_guardedFields named respects_frequencyReader
  | aggregate => exact respects_guardedFields named (respects_childrenReader h)
  | market => exact respects_guardedFields named (respects_levelReader rfl (fun _ => rfl) _)
  | risk => exact respects_guardedFields named respects_riskReader

theorem describes {child : Reader Trigger} (h : child.Respects schema (.part .trigger)) :
    schema.Describes .trigger (bodies child) where
  tagged _ := List.mem_cons_self
  names := by
    intro mode room tag body chosen
    obtain ⟨kind, -, rfl⟩ := Strategy.kindOf_of_tag chosen
    cases kind <;> rfl
  fields := by
    intro mode room tag body chosen
    obtain ⟨kind, named, rfl⟩ := Strategy.kindOf_of_tag chosen
    exact respects_fieldsOf h named

/-- By induction on the levels of nesting: the children of an aggregate are read by the reader of one
level less. -/
theorem respects_readerWithin (levels : Nat) :
    (readerWithin levels).Respects schema (.part .trigger) := by
  induction levels with
  | zero => exact fun _ _ _ _ _ => .refl _
  | succ levels ih => exact Reader.respects_tagged (describes ih) _

theorem respects_reader : reader.Respects schema (.part .trigger) :=
  fun _ room _ _ relaid => respects_readerWithin (room + 1) relaid

end Trigger

namespace Strategy

theorem respects_reader : reader.Respects schema (.part .strategy) := by
  refine Fields.respects_reader (fun _ => rfl) (fun tag => ?_) _
  have portfolio : (Fields.defaulted "initial_portfolio" (Reader.list Instrument.reader)
      []).Respects schema (schema.member .strategy tag) :=
    Fields.respects_defaulted Instrument.respects_list []
  have list : (Reader.list Trigger.reader).Respects schema (.list .trigger) :=
    Trigger.respects_reader.list fun _ _ => rfl
  have triggers : (Fields.required "triggers" (Reader.list Trigger.reader)).Respects schema
      (schema.member .strategy tag) := Fields.respects_required list
  exact (portfolio.map _).seq triggers

/-- The second text differs from the first in layout: in the order of the members of objects, in members
that are not looked at, and in white space between tokens. -/
def SameContent (text other : String) : Prop :=
  ∃ arranged : String,
    Rearranged schema (.part .strategy) depthLimit (Document.ofText text).root
      (Document.ofText arranged).root ∧
    (Document.ofText arranged).trailing = (Document.ofText text).trailing ∧
    Respaced arranged.toList other.toList

/-- Of the text of a value it is the members of the value that may be rearranged. -/
theorem sameContent_of_text {json other : Json} {text : String}
    (rearranged : Rearranged schema (.part .strategy) depthLimit (.ofJson json) (.ofJson other))
    (respaced : Respaced other.text.toList text.toList) : SameContent json.text text := by
  refine ⟨other.text, ?_, ?_, respaced⟩
  · rw [Document.ofText_text, Document.ofText_text]
    exact rearranged
  · rw [Document.ofText_text, Document.ofText_text]

/-- Reading depends on content, not on layout: if no object of a text repeats a key, a text that differs
in layout only is accepted exactly if the first one is, and then holds the same strategy. -/
theorem parse_eq_ok_iff_of_sameContent {text other : String} (same : SameContent text other)
    (distinct : (Document.ofText text).root.NoRepeatedKey) (strategy : Strategy) :
    parse text = .ok strategy ↔ parse other = .ok strategy := by
  obtain ⟨arranged, rearranged, trailing, respaced⟩ := same
  rw [parse_eq_ok, parse_eq_ok, ofText, ofText, Json.read, Json.read, ← respaced.document_eq,
    Document.read, Document.read, trailing]
  refine Alike.bind (respects_reader ⟨distinct, rearranged⟩) (fun _ _ => ?_) strategy
  exact .refl _

/-- A trigger, and the same with a note and with its tag at the end. -/
def monthly : Json :=
  .object [("type", .string "PeriodicTrigger"),
    ("trigger_requirements", .object [("frequency", .string "1m")])]

def annotated : Json :=
  .object [("trigger_requirements", .object [("frequency", .string "1m")]),
    ("note", .array [.null]), ("type", .string "PeriodicTrigger")]

def plainDocument : Json := .object [("triggers", .array [monthly])]

def annotatedDocument : Json := .object [("note", .null), ("triggers", .array [annotated])]

theorem rearranged_annotated :
    Rearranged schema (.part .trigger) 125 (.ofJson monthly) (.ofJson annotated) := by
  refine .of_perm [(.ok "note", .ofJson (.array [.null]))] ?_ (List.perm_append_singleton _ [_, _])
  intro entry inside
  obtain rfl := List.mem_singleton.mp inside
  exact ⟨"note", rfl, ⟨.trigger, rfl, by decide⟩, .array [.null], rfl⟩

theorem rearranged_annotatedDocument :
    Rearranged schema (.part .strategy) depthLimit (.ofJson plainDocument)
      (.ofJson annotatedDocument) := by
  have list : Rearranged schema (.list .trigger) 126 (.ofJson (.array [monthly]))
      (.ofJson (.array [annotated])) := by
    refine rearranged_array_iff.mpr ⟨_, rfl, rfl, fun i item other here there => ?_⟩
    match i with
    | 0 =>
        cases here
        cases there
        exact rearranged_annotated
    | i + 1 => contradiction
  refine rearranged_object_iff.mpr
    ⟨_, rfl, [(.ok "triggers", .ofJson (.array [annotated]))], [(.ok "note", .ofJson .null)],
      .cons ⟨rfl, list⟩ .nil, ?_, .swap _ _ []⟩
  intro entry inside
  obtain rfl := List.mem_singleton.mp inside
  exact ⟨"note", rfl, ⟨.strategy, rfl, by decide⟩, .null, rfl⟩

theorem noRepeatedKey_plainDocument : (Tree.ofJson plainDocument).NoRepeatedKey := by
  refine .ofJson_object (by decide) fun member inside => ?_
  obtain rfl := List.mem_singleton.mp inside
  refine .ofJson_array fun item inside => ?_
  obtain rfl := List.mem_singleton.mp inside
  refine .ofJson_object (by decide) fun member inside => ?_
  obtain rfl | inside := List.mem_cons.mp inside
  · exact .scalar _
  · obtain rfl := List.mem_singleton.mp inside
    refine .ofJson_object (by decide) fun member inside => ?_
    obtain rfl := List.mem_singleton.mp inside
    exact .scalar _

theorem parse_annotatedDocument :
    SameContent plainDocument.text (" " ++ annotatedDocument.text) ∧
      (Document.ofText plainDocument.text).root.NoRepeatedKey ∧
      parse plainDocument.text = .ok ⟨[], [.periodic ⟨"1m", []⟩]⟩ ∧
      parse (" " ++ annotatedDocument.text) = .ok ⟨[], [.periodic ⟨"1m", []⟩]⟩ := by
  have same : SameContent plainDocument.text (" " ++ annotatedDocument.text) := by
    refine sameContent_of_text rearranged_annotatedDocument ?_
    rw [String.toList_append]
    exact .space_right rfl (.same _)
  have distinct : (Document.ofText plainDocument.text).root.NoRepeatedKey := by
    rw [Document.ofText_text]
    exact noRepeatedKey_plainDocument
  have accepted : parse plainDocument.text = .ok ⟨[], [.periodic ⟨"1m", []⟩]⟩ :=
    toOption_eq_some.mp (by decide +kernel)
  exact ⟨same, distinct, accepted, (parse_eq_ok_iff_of_sameContent same distinct _).mp accepted⟩

end Strategy

end VolBacktest
