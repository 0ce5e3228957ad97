import VolBacktest.Lowering
import VolBacktest.Proofs.Journal

/-!
# Lowering in closed form

Lowering goes through the triggers and then through the leaves. Whether it fails at a leaf depends
on that leaf alone, so the error of a strategy is the fault of its first faulty leaf. Without a
faulty leaf the configuration is a fold, and what it holds is decided by the last aggregate of a
side and by the last leaf that enters a position. The journal has the events of the triggers and of
the leaves that come before the first faulty one.
-/

namespace VolBacktest

namespace HedgeFrequency

theorem ofCode_eq_none_iff {code : String} : ofCode code = none ↔ code ≠ businessDay := by
  simp [ofCode]

end HedgeFrequency

namespace Trigger

/-- The signal of a trigger of the strategy, which only an aggregate can have. -/
def signal : Trigger → Option Signal
  | .aggregate children _ => Signal.ofChildren children
  | _ => none

/-- The event of taking over the signal. -/
def event (trigger : Trigger) (index : Nat) : Option Event :=
  trigger.signal.map fun signal => .signal (.trigger index) signal.items.length signal.side

end Trigger

namespace Leaf

/-- The action that takes effect, which is the first. -/
def action (leaf : Leaf) : Option Action := leaf.trigger.actions.head?

/-- How often the engine can hedge for the trigger. -/
def hedgeFrequency (leaf : Leaf) : Option HedgeFrequency :=
  leaf.trigger.frequency.bind HedgeFrequency.ofCode

/-- The position that the leaf enters. -/
def entry (leaf : Leaf) : Option EnterAction :=
  match leaf.action with
  | some (.enter action) => some action
  | _ => none

/-- The error of lowering at this leaf, whatever has been lowered before. -/
def fault (leaf : Leaf) : Option CompileError :=
  match leaf.action with
  | some (.hedge _) =>
    match leaf.hedgeFrequency with
    | some _ => none
    | none => some (.unmappedHedgeFrequency leaf.trigger.frequency leaf.location.path)
  | some (.addTrade _) => some (.unsupportedAction ActionKind.addTrade.name leaf.location.path)
  | some (.rebalance _) => some (.unsupportedAction ActionKind.rebalance.name leaf.location.path)
  | _ => none

/-- The event of taking over the action, which only a hedge leaves. -/
def event (leaf : Leaf) : Option Event :=
  match leaf.action with
  | some (.hedge _) => leaf.hedgeFrequency.map (.hedge leaf.location)
  | _ => none

theorem hedgeFrequency_eq_none_iff {leaf : Leaf} :
    leaf.hedgeFrequency = none ↔ leaf.trigger.frequency ≠ some businessDay := by
  rw [hedgeFrequency]
  cases leaf.trigger.frequency with
  | none => simp
  | some code => simpa using HedgeFrequency.ofCode_eq_none_iff

/-- A frequency is unmapped only at a hedge, and then it is the one of the trigger. -/
theorem fault_eq_unmapped {leaf : Leaf} {frequency : Option String} {path : String}
    (h : leaf.fault = some (.unmappedHedgeFrequency frequency path)) :
    (∃ hedge, leaf.action = some (.hedge hedge)) ∧ leaf.trigger.frequency = frequency ∧
      frequency ≠ some businessDay ∧ leaf.location.path = path := by
  rw [fault] at h
  split at h
  next hedge first =>
    split at h
    next => contradiction
    next unmapped =>
      cases h
      exact ⟨⟨hedge, first⟩, rfl, hedgeFrequency_eq_none_iff.mp unmapped, rfl⟩
  all_goals cases h

/-- An action is unsupported only if its kind is. -/
theorem fault_eq_unsupported {leaf : Leaf} {kind path : String}
    (h : leaf.fault = some (.unsupportedAction kind path)) :
    (∃ action, leaf.action = some action ∧ action.isSupported = false ∧
      action.kind.name = kind) ∧ leaf.location.path = path := by
  rw [fault] at h
  split at h
  next => split at h <;> cases h
  next action first =>
    cases h
    exact ⟨⟨.addTrade action, first, rfl, rfl⟩, rfl⟩
  next action first =>
    cases h
    exact ⟨⟨.rebalance action, first, rfl, rfl⟩, rfl⟩
  next => cases h

theorem fault_ne_rejected {leaf : Leaf} {diagnostics : List Diagnostic} :
    leaf.fault ≠ some (.rejected diagnostics) := by
  intro h
  rw [fault] at h
  split at h
  next => split at h <;> cases h
  all_goals cases h

/-- A faulty leaf leaves no event. -/
theorem event_of_fault {leaf : Leaf} {error : CompileError} (faulty : leaf.fault = some error) :
    leaf.event = none := by
  rw [fault] at faulty
  rw [event]
  split at faulty
  next first =>
    split at faulty
    next => contradiction
    next unmapped => simp only [first, unmapped, Option.map_none]
  next first => simp only [first]
  next first => simp only [first]
  next => contradiction

end Leaf

namespace Config

/-- The configuration with the signal of a trigger, if it has one. -/
def withTrigger (config : Config) (trigger : Trigger) : Config :=
  match trigger.signal with
  | some signal => config.withSignal signal
  | none => config

/-- The configuration with the parameters of a leaf that is not faulty. -/
def withLeaf (config : Config) (leaf : Leaf) : Config :=
  match leaf.action with
  | some (.enter action) => config.withEntry action
  | some (.hedge _) =>
    match leaf.hedgeFrequency with
    | some frequency => config.withHedge frequency
    | none => config
  | _ => config

theorem lowerSignal_eq (config : Config) (trigger : Trigger) (index : Nat) :
    config.lowerSignal trigger index =
      ⟨(trigger.event index).toList, .ok (config.withTrigger trigger)⟩ := by
  unfold lowerSignal withTrigger Trigger.event
  cases trigger with
  | aggregate children actions =>
      simp only [Trigger.signal]
      cases Signal.ofChildren children with
      | none => rfl
      | some signal => rfl
  | date _ => rfl
  | portfolio _ => rfl
  | periodic _ => rfl
  | market _ => rfl
  | risk _ => rfl

theorem lowerLeaf_eq (config : Config) (leaf : Leaf) :
    config.lowerLeaf leaf =
      ⟨leaf.event.toList, leaf.fault.elim (.ok (config.withLeaf leaf)) .error⟩ := by
  rw [lowerLeaf, Leaf.event, Leaf.fault, withLeaf, Leaf.action]
  cases leaf.trigger.actions with
  | nil => rfl
  | cons action rest =>
      cases action with
      | enter _ => rfl
      | exit => rfl
      | addTrade _ => rfl
      | rebalance _ => rfl
      | hedge _ =>
          simp only [lowerAction, List.head?_cons, Leaf.hedgeFrequency]
          cases leaf.trigger.frequency.bind HedgeFrequency.ofCode with
          | none => rfl
          | some frequency => rfl

end Config

namespace Strategy

/-- The configuration of a strategy without a faulty leaf. -/
def configuration (strategy : Strategy) : Config :=
  strategy.leaves.foldl Config.withLeaf
    (strategy.triggers.foldl Config.withTrigger Config.default)

/-- The leaves that lowering gets through. -/
def loweredLeaves (strategy : Strategy) : List Leaf :=
  strategy.leaves.takeWhile fun leaf => leaf.fault.isNone

theorem lowerJournaled_eq (strategy : Strategy) :
    strategy.lowerJournaled =
      ⟨strategy.triggers.zipIdx.filterMap (fun item => item.1.event item.2) ++
          strategy.loweredLeaves.filterMap Leaf.event,
        (strategy.leaves.findSome? Leaf.fault).elim (.ok strategy.configuration) .error⟩ := by
  have signals := Journaled.foldlM_eq_of_ok
    (fun config (item : Trigger × Nat) => config.lowerSignal_eq item.1 item.2)
    strategy.triggers.zipIdx Config.default
  -- The index of a trigger is only told to the journal.
  have unindexed : strategy.triggers.zipIdx.foldl (fun config item => config.withTrigger item.1)
      Config.default = strategy.triggers.foldl Config.withTrigger Config.default := by
    conv => rhs; rw [← List.zipIdx_map_fst 0 strategy.triggers, List.foldl_map]
  rw [lowerJournaled, configuration, signals, unindexed, Journaled.ok_bind,
    Journaled.foldlM_eq Config.lowerLeaf_eq fun _ _ => Leaf.event_of_fault]
  rfl

theorem lower_eq (strategy : Strategy) :
    strategy.lower =
      (strategy.leaves.findSome? Leaf.fault).elim (.ok strategy.configuration) .error := by
  rw [lower, lowerJournaled_eq]

theorem lower_eq_ok_iff {strategy : Strategy} {config : Config} :
    strategy.lower = .ok config ↔
      (∀ leaf ∈ strategy.leaves, leaf.fault = none) ∧ strategy.configuration = config := by
  rw [lower_eq, ← List.findSome?_eq_none_iff]
  cases strategy.leaves.findSome? Leaf.fault <;> simp

theorem fault_of_lower_eq_error {strategy : Strategy} {error : CompileError}
    (h : strategy.lower = .error error) : ∃ leaf ∈ strategy.leaves, leaf.fault = some error := by
  rw [lower_eq] at h
  cases found : strategy.leaves.findSome? Leaf.fault with
  | none => simp [found] at h
  | some first =>
      have same : first = error := by simpa [found] using h
      exact List.exists_of_findSome?_eq_some (same ▸ found)

end Strategy

end VolBacktest
