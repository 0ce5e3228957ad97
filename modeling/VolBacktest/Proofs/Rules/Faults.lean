import VolBacktest.Proofs.Rules.Leaves

/-!
# Faults of a strategy

What can be wrong with a strategy, and where, without a word about how it is found. A fault is told from
others by its place: the same rule broken by two actions of one leaf is two faults. `Fault.Present` looks
the place up in the strategy and says what is wrong there.
-/

namespace VolBacktest

/-- The rules for an action of a leaf. -/
inductive LeafRule where
  | enterDuration
  | enterInstrument
  | enterSize
  | hedgeDuration
  | hedgeRisk
  | hedgeFrequency
  | actionKind
deriving DecidableEq

namespace LeafRule

def code : LeafRule → String
  | enterDuration => "T002"
  | enterInstrument => "T003"
  | enterSize => "T004"
  | hedgeDuration => "T005"
  | hedgeRisk => "T006"
  | hedgeFrequency => "T007"
  | actionKind => "T008"

/-- The action of the trigger breaks the rule. -/
def BrokenBy (trigger : Trigger) : LeafRule → Action → Prop
  | enterDuration, .enter action =>
    ∃ frequency, trigger.frequency = some frequency ∧ action.duration ≠ some frequency
  | enterInstrument, .enter action =>
    ∃ instrument ∈ action.instruments, instrument.kind.isEquityVol = false
  | enterSize, .enter action => action.quantity = none ∨ action.quantityType = none
  | hedgeDuration, .hedge action =>
    trigger.frequency = none ∨ trigger.frequency ≠ action.duration
  | hedgeRisk, .hedge action => action.risk ≠ .eqDelta
  | hedgeFrequency, .hedge _ => trigger.frequency ≠ some "B"
  | actionKind, .addTrade _ => True
  | actionKind, .rebalance _ => True
  | _, _ => False

end LeafRule

inductive Fault where
  | initialPositions
  | tooManyTriggers
  | topLevelKind (index : Nat)
  | childCount (index : Nat)
  | dateChildCount (index : Nat)
  | portfolioChildCount (index : Nat)
  | portfolioGate (index position : Nat)
  | unsupportedOwnAction (index position : Nat)
  /-- The only fault that is in no single place. -/
  | repeatedAction (kind : ActionKind)
  | actionCount (leaf : Location)
  /-- An action of a leaf, by its position there. -/
  | leafAction (rule : LeafRule) (leaf : Location) (position : Nat)
deriving DecidableEq

namespace Fault

def code : Fault → String
  | initialPositions => "V001"
  | tooManyTriggers => "V002"
  | topLevelKind _ => "V003"
  | childCount _ => "V004"
  | dateChildCount _ => "V005"
  | portfolioChildCount _ => "V006"
  | portfolioGate _ _ => "V007"
  | unsupportedOwnAction _ _ => "V008"
  | repeatedAction _ => "V009"
  | actionCount _ => "T001"
  | leafAction rule _ _ => rule.code

/-- The place that a report points at. -/
def location : Fault → Option Location
  | initialPositions => some .initialPortfolio
  | tooManyTriggers => some .triggers
  | topLevelKind i | childCount i | dateChildCount i | portfolioChildCount i => some (.trigger i)
  | portfolioGate i j => some (.child i j)
  | unsupportedOwnAction i k => some (.action i k)
  | repeatedAction _ => none
  | actionCount leaf | leafAction _ leaf _ => some leaf

/-- Whether the fault is one of a leaf, as opposed to one of the shape of the strategy. -/
def isOfLeaf : Fault → Bool
  | actionCount _ | leafAction _ _ _ => true
  | initialPositions | tooManyTriggers | topLevelKind _ | childCount _ | dateChildCount _
  | portfolioChildCount _ | portfolioGate _ _ | unsupportedOwnAction _ _ | repeatedAction _ => false

end Fault

namespace Strategy

/-- The location is a place in the strategy. -/
def Contains (strategy : Strategy) : Location → Prop
  | .initialPortfolio | .triggers => True
  | .trigger i => ∃ trigger, strategy.triggers[i]? = some trigger
  | .child i j => ∃ children own child,
    strategy.triggers[i]? = some (.aggregate children own) ∧ children[j]? = some child
  | .action i k => ∃ trigger action,
    strategy.triggers[i]? = some trigger ∧ trigger.actions[k]? = some action

/-- The trigger at this location is a leaf. -/
inductive LeafAt (strategy : Strategy) : Location → Trigger → Prop where
  | trigger {i : Nat} {trigger : Trigger} (found : strategy.triggers[i]? = some trigger)
      (single : trigger.kind ≠ .aggregate) : LeafAt strategy (.trigger i) trigger
  | child {i j : Nat} {children : List Trigger} {own : List Action} {child : Trigger}
      (found : strategy.triggers[i]? = some (.aggregate children own))
      (placed : children[j]? = some child) (leafy : child.kind ≠ .portfolio) :
      LeafAt strategy (.child i j) child

end Strategy

/-- What is wrong with the strategy at the place of the fault. -/
def Fault.Present (strategy : Strategy) : Fault → Prop
  | initialPositions => strategy.initialPortfolio ≠ []
  | tooManyTriggers => 3 < strategy.triggers.length
  | topLevelKind i => ∃ trigger, strategy.triggers[i]? = some trigger ∧
    trigger.kind ≠ .periodic ∧ trigger.kind ≠ .aggregate
  | childCount i => ∃ children own, strategy.triggers[i]? = some (.aggregate children own) ∧
    children.length ≠ 2
  | dateChildCount i => ∃ children own, strategy.triggers[i]? = some (.aggregate children own) ∧
    children.countP (fun child => child.kind = .date) ≠ 1
  | portfolioChildCount i => ∃ children own,
    strategy.triggers[i]? = some (.aggregate children own) ∧
      children.countP (fun child => child.kind = .portfolio) ≠ 1
  | portfolioGate i j => ∃ children own gate,
    strategy.triggers[i]? = some (.aggregate children own) ∧
      children[j]? = some (.portfolio gate) ∧
        (gate.requirement.source ≠ "len" ∨ gate.requirement.level.isZero = false)
  | unsupportedOwnAction i k => ∃ trigger action, strategy.triggers[i]? = some trigger ∧
    trigger.actions[k]? = some action ∧ (action.kind = .addTrade ∨ action.kind = .rebalance)
  | repeatedAction kind => 1 < strategy.ownActionKinds.count kind
  | actionCount leaf => ∃ trigger, strategy.LeafAt leaf trigger ∧ trigger.actions.length ≠ 1
  | leafAction rule leaf k => ∃ trigger action, strategy.LeafAt leaf trigger ∧
    trigger.actions[k]? = some action ∧ rule.BrokenBy trigger action

/-! ### Places -/

/-- Any trigger but an aggregate stands for itself. -/
theorem Trigger.leaves_of_single {trigger : Trigger} (single : trigger.kind ≠ .aggregate)
    (index : Nat) : trigger.leaves index = [⟨trigger, .trigger index⟩] := by
  cases trigger with
  | aggregate _ _ => contradiction
  | date _ => rfl
  | portfolio _ => rfl
  | periodic _ => rfl
  | market _ => rfl
  | risk _ => rfl

namespace Strategy

variable {strategy : Strategy}

theorem mem_leaves_iff_leafAt {leaf : Leaf} :
    leaf ∈ strategy.leaves ↔ strategy.LeafAt leaf.location leaf.trigger := by
  rw [mem_leaves_iff]
  constructor
  · rintro ⟨index, trigger, found, contributed⟩
    by_cases single : trigger.kind = .aggregate
    · cases trigger with
      | aggregate children own =>
          obtain ⟨position, child, placed, leafy, rfl⟩ :=
            Trigger.mem_leaves_aggregate_iff.mp contributed
          exact .child found placed leafy
      | _ => contradiction
    · rw [Trigger.leaves_of_single single, List.mem_singleton] at contributed
      subst contributed
      exact .trigger found single
  · obtain ⟨trigger, location⟩ := leaf
    intro placed
    cases placed with
    | @trigger i _ found single =>
        refine ⟨i, trigger, found, ?_⟩
        rw [Trigger.leaves_of_single single]
        exact List.mem_singleton_self _
    | child found placed leafy =>
        exact ⟨_, _, found, Trigger.mem_leaves_aggregate_iff.mpr ⟨_, _, placed, leafy, rfl⟩⟩

/-- A location belongs to one leaf at most. -/
theorem LeafAt.unique {location : Location} {first second : Trigger}
    (one : strategy.LeafAt location first) (other : strategy.LeafAt location second) :
    first = second := by
  cases one with
  | trigger found _ =>
      cases other with
      | trigger foundToo _ => exact Option.some.inj (found.symm.trans foundToo)
  | child found placed _ =>
      cases other with
      | child foundToo placedToo _ =>
          obtain ⟨rfl, rfl⟩ := Trigger.aggregate.inj (Option.some.inj (found.symm.trans foundToo))
          exact Option.some.inj (placed.symm.trans placedToo)

theorem LeafAt.contains {location : Location} {trigger : Trigger}
    (leaf : strategy.LeafAt location trigger) : strategy.Contains location := by
  cases leaf with
  | trigger found _ => exact ⟨_, found⟩
  | child found placed _ => exact ⟨_, _, _, found, placed⟩

/-- A report points into the strategy. -/
theorem contains_of_present {fault : Fault} {location : Location}
    (present : fault.Present strategy) (located : fault.location = some location) :
    strategy.Contains location := by
  cases fault <;> cases located
  case initialPositions => trivial
  case tooManyTriggers => trivial
  case topLevelKind =>
    obtain ⟨trigger, found, -⟩ := present
    exact ⟨trigger, found⟩
  case childCount =>
    obtain ⟨_, _, found, -⟩ := present
    exact ⟨_, found⟩
  case dateChildCount =>
    obtain ⟨_, _, found, -⟩ := present
    exact ⟨_, found⟩
  case portfolioChildCount =>
    obtain ⟨_, _, found, -⟩ := present
    exact ⟨_, found⟩
  case portfolioGate =>
    obtain ⟨_, _, _, found, placed, -⟩ := present
    exact ⟨_, _, _, found, placed⟩
  case unsupportedOwnAction =>
    obtain ⟨_, _, found, placed, -⟩ := present
    exact ⟨_, _, found, placed⟩
  case actionCount =>
    obtain ⟨_, leaf, -⟩ := present
    exact leaf.contains
  case leafAction =>
    obtain ⟨_, _, leaf, -⟩ := present
    exact leaf.contains

end Strategy

end VolBacktest
