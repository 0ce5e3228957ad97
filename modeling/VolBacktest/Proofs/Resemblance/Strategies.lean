import VolBacktest.Proofs.Compilation.Agreement
import VolBacktest.Proofs.Resemblance.Fields
import VolBacktest.Proofs.Traversals

/-!
# Strategies that look alike

The rules and lowering look at a strategy through a few views: where its leaves stand, of what kind
they are, with which frequency and actions, and which children an aggregate has. Of the instruments
they look at the kinds. Two strategies that agree on all of this resemble each other. They are
judged alike, and lowering both gives the same error or the same configuration, up to the free-form
fields of the instruments in it.
-/

namespace VolBacktest

variable {f : FreeFields → FreeFields}

/-! ### Actions -/

/-- Of the trigger only the frequency counts. -/
theorem EnterAction.breaches_eq (trigger : Trigger) (action : EnterAction) :
    action.breaches trigger =
      (match trigger.frequency with
        | some frequency =>
          if action.duration = some frequency then []
          else [.enterDuration frequency action.duration]
        | none => []) ++
      (match action.instruments.find? fun instrument => !instrument.kind.isEquityVol with
        | some instrument => [.enterInstrument instrument.kind]
        | none => []) ++
      if action.quantity.isNone ∨ action.quantityType.isNone then [.enterUnsized] else [] := by
  cases trigger <;> rfl

theorem EnterAction.breaches_mapFields {trigger other : Trigger}
    (frequency : other.frequency = trigger.frequency) (action : EnterAction) :
    (action.mapFields f).breaches other = action.breaches trigger := by
  have unsuitable : (action.mapFields f).instruments.find? (fun i => !i.kind.isEquityVol) =
      (action.instruments.find? fun i => !i.kind.isEquityVol).map (Instrument.mapFields f) :=
    List.find?_map
  rw [breaches_eq, breaches_eq, frequency, unsuitable]
  cases action.instruments.find? fun i => !i.kind.isEquityVol <;> rfl

theorem HedgeAction.breaches_congr {trigger other : Trigger}
    (frequency : other.frequency = trigger.frequency) (action : HedgeAction) :
    action.breaches other = action.breaches trigger := by
  rw [breaches, breaches, frequency]

/-- The rules for actions look at the kinds of instruments and at the frequency of the trigger. -/
theorem Action.breaches_mapFields {trigger other : Trigger}
    (frequency : other.frequency = trigger.frequency) (action : Action) :
    (action.mapFields f).breaches other = action.breaches trigger := by
  cases action with
  | enter action => exact action.breaches_mapFields frequency
  | hedge action => exact action.breaches_congr frequency
  | exit => rfl
  | addTrade _ => rfl
  | rebalance _ => rfl

/-! ### Leaves -/

namespace Leaf

/-- The other leaf is this one with changed free-form fields, or looks so to every rule and to
lowering. -/
structure Resembles (f : FreeFields → FreeFields) (leaf other : Leaf) : Prop where
  location : other.location = leaf.location
  kind : other.trigger.kind = leaf.trigger.kind
  frequency : other.trigger.frequency = leaf.trigger.frequency
  actions : other.trigger.actions = leaf.trigger.actions.map (Action.mapFields f)

namespace Resembles

variable {leaf other : Leaf}

theorem refl (leaf : Leaf) : leaf.Resembles id leaf :=
  ⟨rfl, rfl, rfl, (Action.map_mapFields_id _).symm⟩

theorem violations (alike : leaf.Resembles f other) : other.violations = leaf.violations := by
  have judged (action : Action) : (action.mapFields f).breaches other.trigger =
      action.breaches leaf.trigger := action.breaches_mapFields alike.frequency
  rw [Leaf.violations, Leaf.violations, Trigger.leafBreaches, Trigger.leafBreaches, alike.location,
    alike.kind, alike.actions, List.length_map, List.flatMap_map]
  simp only [judged]

theorem action (alike : leaf.Resembles f other) :
    other.action = leaf.action.map (Action.mapFields f) := by
  rw [Leaf.action, alike.actions, List.head?_map, Leaf.action]

theorem hedgeFrequency (alike : leaf.Resembles f other) :
    other.hedgeFrequency = leaf.hedgeFrequency := by
  rw [Leaf.hedgeFrequency, alike.frequency, Leaf.hedgeFrequency]

theorem fault (alike : leaf.Resembles f other) : other.fault = leaf.fault := by
  rw [Leaf.fault, Leaf.fault, alike.action, alike.hedgeFrequency, alike.frequency, alike.location]
  cases leaf.action with
  | none => rfl
  | some action => cases action <;> rfl

theorem withLeaf (alike : leaf.Resembles f other) (config : Config) :
    (config.mapFields f).withLeaf other = (config.withLeaf leaf).mapFields f := by
  rw [Config.withLeaf, Config.withLeaf, alike.action, alike.hedgeFrequency]
  cases leaf.action with
  | none => rfl
  | some action =>
      cases action with
      | hedge _ => cases leaf.hedgeFrequency <;> rfl
      | enter _ => rfl
      | exit => rfl
      | addTrade _ => rfl
      | rebalance _ => rfl

end Resembles

end Leaf

/-! ### Triggers -/

/-- The signal of a trigger only depends on the requirements of its children. -/
theorem Signal.ofChildren_eq (children : List Trigger) :
    Signal.ofChildren children =
      ((AggregateParts.ofChildren children).dates.map Guarded.requirement).head?.bind fun dates =>
        ((AggregateParts.ofChildren children).portfolios.map Guarded.requirement).head?.map
          fun gate => ⟨gate.side, dates.map SignalItem.firesOn⟩ := by
  rw [ofChildren_eq_bind, List.head?_map, List.head?_map, Option.bind_map]
  simp only [Option.map_map]
  rfl

theorem Trigger.gateViolations_eq (index position : Nat) (child : Trigger) :
    child.gateViolations index position =
      match child.asPortfolio.map Guarded.requirement with
      | some gate =>
        reportUnless gate.IsPortfolioGate
          ((Breach.portfolioGate gate.source gate.level).at (.child index position))
      | none => [] := by
  cases child <;> rfl

/-- Of the own actions of a trigger only the kinds are judged. -/
theorem Trigger.ownActionViolations_eq (index : Nat) (trigger : Trigger) :
    trigger.ownActionViolations index =
      (trigger.actions.map Action.kind).zipIdx.flatMap fun item =>
        reportUnless item.1.isSupported
          ((Breach.unsupportedOwnAction item.1).at (.action index item.2)) := by
  rw [List.zipIdx_map, List.flatMap_map]
  rfl

theorem Config.mapFields_withTrigger (config : Config) {trigger other : Trigger}
    (signal : other.signal = trigger.signal) :
    (config.mapFields f).withTrigger other = (config.withTrigger trigger).mapFields f := by
  rw [withTrigger, withTrigger, signal]
  cases trigger.signal with
  | none => rfl
  | some signal => cases side : signal.side <;> simp [withSignal, side, mapFields]

/-- The leaves of an aggregate child by child. -/
theorem Trigger.leaves_aggregate_eq (index : Nat) (children : List Trigger)
    (actions : List Action) :
    (aggregate children actions).leaves index =
      children.zipIdx.flatMap fun item =>
        if item.1.kind = .portfolio then [] else [⟨item.1, .child index item.2⟩] := by
  rw [leaves]
  generalize children.zipIdx = items
  induction items with
  | nil => rfl
  | cons item rest ih =>
      by_cases gate : item.1.kind = .portfolio
      · simp [gate, ← ih]
      · simp [gate, ← ih]

namespace Trigger

/-! A trigger that is no aggregate has no composition and no signal, and is a leaf itself. -/

section Plain

variable {trigger : Trigger} (plain : trigger.kind ≠ .aggregate)

include plain

theorem compositionViolations_of_plain (index : Nat) :
    trigger.compositionViolations index = [] := by
  cases trigger with
  | aggregate _ _ => exact absurd rfl plain
  | _ => rfl

theorem signal_of_plain : trigger.signal = none := by
  cases trigger with
  | aggregate _ _ => exact absurd rfl plain
  | _ => rfl

theorem leaves_of_plain (index : Nat) : trigger.leaves index = [⟨trigger, .trigger index⟩] := by
  cases trigger with
  | aggregate _ _ => exact absurd rfl plain
  | _ => rfl

end Plain

/-- A child that plays the same part in its aggregate. The actions of a portfolio child have no
part in it. -/
structure ResemblesInside (f : FreeFields → FreeFields) (child other : Trigger) : Prop where
  kind : other.kind = child.kind
  frequency : other.frequency = child.frequency
  dates : other.asDate.map Guarded.requirement = child.asDate.map Guarded.requirement
  gate : other.asPortfolio.map Guarded.requirement = child.asPortfolio.map Guarded.requirement
  actions : child.kind ≠ .portfolio → other.actions = child.actions.map (Action.mapFields f)

/-- All that the rules and lowering see of a trigger of the strategy. -/
structure Resembles (f : FreeFields → FreeFields) (trigger other : Trigger) : Prop where
  kind : other.kind = trigger.kind
  ownKinds : other.actions.map Action.kind = trigger.actions.map Action.kind
  composition (index : Nat) :
    other.compositionViolations index = trigger.compositionViolations index
  signal : other.signal = trigger.signal
  leaves (index : Nat) :
    List.Forall₂ (Leaf.Resembles f) (trigger.leaves index) (other.leaves index)

theorem ResemblesInside.refl (child : Trigger) : child.ResemblesInside id child :=
  ⟨rfl, rfl, rfl, rfl, fun _ => (Action.map_mapFields_id _).symm⟩

theorem Resembles.refl (trigger : Trigger) : trigger.Resembles id trigger :=
  ⟨rfl, rfl, fun _ => rfl, rfl, fun _ => List.forall₂_same.mpr fun leaf _ => .refl leaf⟩

theorem requirements_eq {ρ : Type} {role : Trigger → Option (Guarded ρ)}
    {children others : List Trigger}
    (one : ∀ child other, ResemblesInside f child other →
      (role other).map Guarded.requirement = (role child).map Guarded.requirement)
    (inside : List.Forall₂ (ResemblesInside f) children others) :
    (others.filterMap role).map Guarded.requirement =
      (children.filterMap role).map Guarded.requirement := by
  have same := congrArg (List.filterMap id) (map_eq_of_forall₂ one inside)
  rw [List.filterMap_map, List.filterMap_map] at same
  rw [List.map_filterMap, List.map_filterMap]
  exact same

theorem ResemblesInside.leaves {child other : Trigger} (alike : child.ResemblesInside f other)
    (location : Location) :
    List.Forall₂ (Leaf.Resembles f) (if child.kind = .portfolio then [] else [⟨child, location⟩])
      (if other.kind = .portfolio then [] else [⟨other, location⟩]) := by
  rw [alike.kind]
  by_cases gate : child.kind = .portfolio
  · rw [if_pos gate, if_pos gate]
    exact .nil
  · rw [if_neg gate, if_neg gate]
    exact .cons ⟨rfl, alike.kind, alike.frequency, alike.actions gate⟩ .nil

/-- A trigger that is no aggregate only has to look the same itself. -/
theorem Resembles.plain {trigger other : Trigger} (plain : trigger.kind ≠ .aggregate)
    (kind : other.kind = trigger.kind) (frequency : other.frequency = trigger.frequency)
    (actions : other.actions = trigger.actions.map (Action.mapFields f)) :
    trigger.Resembles f other := by
  have otherPlain : other.kind ≠ .aggregate := kind ▸ plain
  refine ⟨kind, ?_, ?_, ?_, ?_⟩
  · rw [actions, Action.map_kind_mapFields]
  · intro index
    rw [compositionViolations_of_plain plain, compositionViolations_of_plain otherPlain]
  · rw [signal_of_plain plain, signal_of_plain otherPlain]
  · intro index
    rw [leaves_of_plain plain, leaves_of_plain otherPlain]
    exact .cons ⟨rfl, kind, frequency, actions⟩ .nil

/-- Aggregates resemble each other if their children do. -/
theorem Resembles.aggregate {children others : List Trigger} {own changed : List Action}
    (inside : List.Forall₂ (ResemblesInside f) children others)
    (ownKinds : changed.map Action.kind = own.map Action.kind) :
    (Trigger.aggregate children own).Resembles f (.aggregate others changed) := by
  have dates : ((AggregateParts.ofChildren others).dates.map Guarded.requirement) =
      (AggregateParts.ofChildren children).dates.map Guarded.requirement := by
    rw [AggregateParts.dates_ofChildren, AggregateParts.dates_ofChildren]
    exact requirements_eq (fun _ _ alike => alike.dates) inside
  have gates : ((AggregateParts.ofChildren others).portfolios.map Guarded.requirement) =
      (AggregateParts.ofChildren children).portfolios.map Guarded.requirement := by
    rw [AggregateParts.portfolios_ofChildren, AggregateParts.portfolios_ofChildren]
    exact requirements_eq (fun _ _ alike => alike.gate) inside
  have dateCount := congrArg List.length dates
  have gateCount := congrArg List.length gates
  rw [List.length_map, List.length_map] at dateCount gateCount
  refine ⟨rfl, ownKinds, ?_, ?_, ?_⟩
  · intro index
    have gated := flatMap_zipIdx_eq_of_forall₂
      (fun child position => child.gateViolations index position)
      (fun _ _ position alike => by rw [gateViolations_eq, alike.gate, ← gateViolations_eq])
      inside 0
    rw [compositionViolations, compositionViolations, ← inside.length_eq, dateCount, gateCount,
      gated]
  · change Signal.ofChildren others = Signal.ofChildren children
    rw [Signal.ofChildren_eq, Signal.ofChildren_eq, dates, gates]
  · intro index
    rw [leaves_aggregate_eq, leaves_aggregate_eq]
    exact forall₂_flatMap_zipIdx (fun _ _ position alike => alike.leaves (.child index position))
      inside 0

end Trigger

/-! ### Strategies -/

namespace Strategy

variable {strategy other : Strategy}

/-- Leaves that resemble each other are judged alike. -/
theorem leafViolations_of_leaves
    (leaves : List.Forall₂ (Leaf.Resembles f) strategy.leaves other.leaves) :
    other.leafViolations = strategy.leafViolations := by
  rw [leafViolations, leafViolations, List.flatMap_def, List.flatMap_def,
    map_eq_of_forall₂ (fun _ _ alike => alike.violations) leaves]

/-- Lowering looks at the signals of the triggers and at the leaves. -/
theorem lower_of_leaves
    (signals : List.Forall₂ (fun trigger changed => changed.signal = trigger.signal)
      strategy.triggers other.triggers)
    (leaves : List.Forall₂ (Leaf.Resembles f) strategy.leaves other.leaves) :
    other.lower = strategy.lower.map (Config.mapFields f) := by
  have faults : other.leaves.findSome? Leaf.fault = strategy.leaves.findSome? Leaf.fault :=
    findSome?_eq_of_forall₂ (fun _ _ alike => alike.fault) leaves
  -- A default configuration has no instruments.
  have afterTriggers : other.triggers.foldl Config.withTrigger Config.default =
      (strategy.triggers.foldl Config.withTrigger Config.default).mapFields f :=
    foldl_eq_of_forall₂ (fun config _ _ same => config.mapFields_withTrigger same) signals
      Config.default
  have configurations : other.configuration = strategy.configuration.mapFields f := by
    rw [configuration, configuration, afterTriggers]
    exact foldl_eq_of_forall₂ (fun config _ _ alike => alike.withLeaf config) leaves _
  rw [lower_eq, lower_eq, faults, configurations]
  cases strategy.leaves.findSome? Leaf.fault <;> rfl

/-- The other strategy has as many initial positions, and the same triggers as far as the rules and
lowering can see. -/
structure Resembles (f : FreeFields → FreeFields) (strategy other : Strategy) : Prop where
  initialPortfolio : other.initialPortfolio.length = strategy.initialPortfolio.length
  triggers : List.Forall₂ (Trigger.Resembles f) strategy.triggers other.triggers

namespace Resembles

theorem leaves (alike : strategy.Resembles f other) :
    List.Forall₂ (Leaf.Resembles f) strategy.leaves other.leaves :=
  forall₂_flatMap_zipIdx (fun _ _ index same => same.leaves index) alike.triggers 0

theorem ownActionKinds (alike : strategy.Resembles f other) :
    other.ownActionKinds = strategy.ownActionKinds := by
  rw [Strategy.ownActionKinds, Strategy.ownActionKinds, List.flatMap_def, List.flatMap_def,
    map_eq_of_forall₂ (fun _ _ same => same.ownKinds) alike.triggers]

theorem shapeViolations (alike : strategy.Resembles f other) :
    other.shapeViolations = strategy.shapeViolations := by
  have noPositions : other.initialPortfolio.isEmpty = strategy.initialPortfolio.isEmpty := by
    rw [Bool.eq_iff_iff, List.isEmpty_iff_length_eq_zero, List.isEmpty_iff_length_eq_zero,
      alike.initialPortfolio]
  have topLevel := flatMap_zipIdx_eq_of_forall₂
    (fun trigger index => trigger.topLevelViolations index)
    (fun _ _ _ same => by rw [Trigger.topLevelViolations, same.kind, Trigger.topLevelViolations])
    alike.triggers 0
  have composition := flatMap_zipIdx_eq_of_forall₂
    (fun trigger index => trigger.compositionViolations index)
    (fun _ _ index same => same.composition index) alike.triggers 0
  have ownActions := flatMap_zipIdx_eq_of_forall₂
    (fun trigger index => trigger.ownActionViolations index)
    (fun _ _ _ same => by
      rw [Trigger.ownActionViolations_eq, same.ownKinds, ← Trigger.ownActionViolations_eq])
    alike.triggers 0
  rw [Strategy.shapeViolations, Strategy.shapeViolations, repeatedKindViolations,
    repeatedKindViolations, alike.ownActionKinds, topLevel, composition, ownActions,
    ← alike.triggers.length_eq, alike.initialPortfolio, noPositions]

theorem violations (alike : strategy.Resembles f other) :
    other.violations = strategy.violations := by
  rw [Strategy.violations, Strategy.violations, alike.shapeViolations,
    leafViolations_of_leaves alike.leaves]

theorem diagnostics (alike : strategy.Resembles f other) :
    other.diagnostics = strategy.diagnostics := by
  rw [Strategy.diagnostics, Strategy.diagnostics, alike.violations]

theorem lower (alike : strategy.Resembles f other) :
    other.lower = strategy.lower.map (Config.mapFields f) :=
  lower_of_leaves (alike.triggers.imp fun _ _ same => same.signal) alike.leaves

theorem compile (alike : strategy.Resembles f other) :
    other.compile = strategy.compile.map (Config.mapFields f) := by
  rw [compile_eq, compile_eq, alike.diagnostics, alike.lower]
  by_cases silent : strategy.diagnostics = []
  · rw [if_pos silent, if_pos silent]
  · rw [if_neg silent, if_neg silent]
    rfl

end Resembles

end Strategy

end VolBacktest
