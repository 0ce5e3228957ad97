import VolBacktest.Action.Document
import VolBacktest.Trigger.Basic

/-!
# Triggers in documents

A trigger is an object with its kind under `type`, then its requirement, then its actions. When a
trigger is read, the actions may be left out. The children of an aggregate are triggers again, so
the reader of triggers is built from itself, one level of nesting after the other.
-/

namespace VolBacktest

open Json

namespace Direction

def json (direction : Direction) : Json := .string direction.name

def reader : Reader Direction := .oneOf name [above, below, equal]

end Direction

/-- A requirement and actions, as the members beside the tag of a trigger. -/
def guardedMembers (requirement : List (String × Json)) (actions : List Action) :
    List (String × Json) :=
  [("trigger_requirements", .object requirement), ("actions", .array (actions.map Action.json))]

namespace Trigger

def datesMembers (dates : List Date) : List (String × Json) :=
  [("dates", .array (dates.map Json.date))]

def levelMembers (requirement : LevelRequirement) : List (String × Json) :=
  [("data_source", .string requirement.source),
    ("trigger_level", .float requirement.level),
    ("direction", requirement.direction.json)]

def riskMembers (requirement : RiskRequirement) : List (String × Json) :=
  [("risk", requirement.risk.json),
    ("trigger_level", .float requirement.level),
    ("direction", requirement.direction.json)]

/-- A trigger whose requirement has these members. -/
def jsonWith (trigger : Trigger) (requirement : List (String × Json)) : Json :=
  .object ((tagName, .string trigger.kind.name) :: guardedMembers requirement trigger.actions)

mutual

/-- The members of the requirement of a trigger. -/
def requirementMembers : Trigger → List (String × Json)
  | date t => datesMembers t.requirement
  | portfolio t => levelMembers t.requirement
  | periodic t => [("frequency", .string t.requirement)]
  | aggregate children _ => [("triggers", .array (jsonList children))]
  | market t => levelMembers t.requirement
  | risk t => riskMembers t.requirement

def jsonList : List Trigger → List Json
  | [] => []
  | trigger :: rest => trigger.jsonWith trigger.requirementMembers :: jsonList rest

end

def json (trigger : Trigger) : Json := trigger.jsonWith trigger.requirementMembers

@[simp] theorem jsonList_eq_map (triggers : List Trigger) :
    jsonList triggers = triggers.map json := by
  induction triggers with
  | nil => rfl
  | cons trigger rest ih => simp [jsonList, json, ih]

/-- A requirement together with the actions, which may be left out. -/
def guardedFields (requirement : Reader ρ) (make : ρ → List Action → Trigger) : Fields Trigger :=
  make <$> .required "trigger_requirements" requirement
    <*> .defaulted "actions" (Reader.list Action.reader) []

def datesReader : Reader (List Date) :=
  (Fields.required "dates" (Reader.list .date)).reader "DateTriggerRequirements"

def levelReader (typeName : String) : Reader LevelRequirement :=
  ((fun source level direction => (⟨source, level, direction⟩ : LevelRequirement))
    <$> Fields.required "data_source" .string <*> .required "trigger_level" .number
    <*> .required "direction" Direction.reader).reader typeName

def frequencyReader : Reader String :=
  (Fields.required "frequency" .string).reader "PeriodicTriggerRequirements"

def childrenReader (child : Reader Trigger) : Reader (List Trigger) :=
  (Fields.required "triggers" (Reader.list child)).reader "AggregateTriggerRequirements"

def riskReader : Reader RiskRequirement :=
  ((fun risk level direction => (⟨risk, level, direction⟩ : RiskRequirement))
    <$> Fields.required "risk" RiskMeasure.reader <*> .required "trigger_level" .number
    <*> .required "direction" Direction.reader).reader "RiskTriggerRequirements"

/-- The fields of each kind of trigger; `child` reads the children of an aggregate. -/
def fieldsOf (child : Reader Trigger) : TriggerKind → Fields Trigger
  | .date => guardedFields datesReader fun dates actions => date ⟨dates, actions⟩
  | .portfolio =>
    guardedFields (levelReader "PortfolioTriggerRequirements") fun level actions =>
      portfolio ⟨level, actions⟩
  | .periodic =>
    guardedFields frequencyReader fun frequency actions => periodic ⟨frequency, actions⟩
  | .aggregate => guardedFields (childrenReader child) aggregate
  | .market =>
    guardedFields (levelReader "MktTriggerRequirements") fun level actions =>
      market ⟨level, actions⟩
  | .risk => guardedFields riskReader fun requirement actions => risk ⟨requirement, actions⟩

/-- The tags in the order of their indices. -/
def bodies (child : Reader Trigger) : List (String × TaggedBody Trigger) :=
  [TriggerKind.date, .portfolio, .periodic, .aggregate, .market, .risk].map fun kind =>
    (kind.name, ⟨"TriggerBase", fieldsOf child kind⟩)

/-- Reads triggers nested at most that deep. -/
def readerWithin : (levels : Nat) → Reader Trigger
  | 0 => fun _ _ _ => .error (.fault .tooDeep)
  | levels + 1 => .tagged "Trigger" (bodies (readerWithin levels))

/-- Every level of nesting opens containers, so no more levels are needed than there are containers
left to open. -/
def reader : Reader Trigger := fun mode budget tree => readerWithin (budget + 1) mode budget tree

end Trigger

end VolBacktest
