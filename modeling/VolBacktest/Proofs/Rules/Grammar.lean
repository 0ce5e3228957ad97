import VolBacktest.Proofs.Rules.Leaves

/-!
# The grammar of supported strategies

The strategies that the engine takes, written down as a grammar: what a trigger may look like as a
whole, production by production, with no mention of rules, reports or leaves.
`Strategy.isSupported_iff_inGrammar` says that the gate lets through exactly these. The rules are
spread over several traversals of a strategy; what all of them together ask of one trigger is
`Trigger.AcceptedAt`, and a lemma on each kind of action says that this is its production.
-/

namespace VolBacktest

/-- A position in options and variance swaps, of a size that is given. -/
structure EnterAction.InGrammar (action : EnterAction) : Prop where
  equityVol : ∀ instrument ∈ action.instruments,
    instrument.kind = .eqOption ∨ instrument.kind = .eqVarianceSwap
  sized : ∃ quantity, action.quantity = some quantity
  measured : ∃ type, action.quantityType = some type

/-- What a trigger of this frequency may do. -/
inductive Action.InPeriod (frequency : String) : Action → Prop where
  | enter (action : EnterAction) (position : action.InGrammar)
      (period : action.duration = some frequency) : InPeriod frequency (.enter action)
  | hedge (action : HedgeAction) (delta : action.risk = .eqDelta)
      (duration : action.duration = some "B") (daily : frequency = "B") :
      InPeriod frequency (.hedge action)
  | exit : InPeriod frequency .exit

/-- What dates may lead to. -/
inductive Action.OnDates : Action → Prop where
  | enter (action : EnterAction) (position : action.InGrammar) : OnDates (.enter action)
  | exit : OnDates .exit

/-- What an aggregate may have for itself, where only the kind of action matters. -/
inductive Action.OnAggregate : Action → Prop where
  | enter (action : EnterAction) : OnAggregate (.enter action)
  | hedge (action : HedgeAction) : OnAggregate (.hedge action)
  | exit : OnAggregate .exit

/-- The number of open positions compared with zero, of either sign. -/
def LevelRequirement.InGrammar (requirement : LevelRequirement) : Prop :=
  requirement.source = "len" ∧ ∃ negative, requirement.level = .signedZero negative

inductive Trigger.InGrammar : Trigger → Prop where
  | periodic (frequency : String) (action : Action) (permitted : action.InPeriod frequency) :
      InGrammar (.periodic ⟨frequency, [action]⟩)
  | datesFirst (dates : List Date) (action : Action) (gate : Guarded LevelRequirement)
      (own : List Action) (permitted : action.OnDates) (empty : gate.requirement.InGrammar)
      (known : ∀ action ∈ own, action.OnAggregate) :
      InGrammar (.aggregate [.date ⟨dates, [action]⟩, .portfolio gate] own)
  | gateFirst (dates : List Date) (action : Action) (gate : Guarded LevelRequirement)
      (own : List Action) (permitted : action.OnDates) (empty : gate.requirement.InGrammar)
      (known : ∀ action ∈ own, action.OnAggregate) :
      InGrammar (.aggregate [.portfolio gate, .date ⟨dates, [action]⟩] own)

structure Strategy.InGrammar (strategy : Strategy) : Prop where
  noPositions : strategy.initialPortfolio = []
  atMostThree : strategy.triggers.length ≤ 3
  triggers : ∀ trigger ∈ strategy.triggers, trigger.InGrammar
  kindsOnce : ((strategy.triggers.flatMap Trigger.actions).map Action.kind).Nodup

/-! ### Actions -/

theorem InstrumentKind.isEquityVol_iff {kind : InstrumentKind} :
    kind.isEquityVol = true ↔ kind = .eqOption ∨ kind = .eqVarianceSwap := by
  cases kind <;> simp [isEquityVol]

theorem EnterAction.fits_iff {trigger : Trigger} {action : EnterAction} :
    action.Fits trigger ↔ action.InGrammar ∧
      ∀ frequency, trigger.frequency = some frequency → action.duration = some frequency := by
  simp only [Fits, InstrumentKind.isEquityVol_iff, Option.isSome_iff_exists]
  constructor
  · rintro ⟨period, equityVol, sized, measured⟩
    exact ⟨⟨equityVol, sized, measured⟩, period⟩
  · rintro ⟨⟨equityVol, sized, measured⟩, period⟩
    exact ⟨period, equityVol, sized, measured⟩

theorem Action.fits_periodic_iff {frequency : String} {actions : List Action} {action : Action} :
    action.Fits (.periodic ⟨frequency, actions⟩) ↔ action.InPeriod frequency := by
  constructor
  · intro fits
    cases action with
    | enter action =>
        obtain ⟨position, period⟩ := EnterAction.fits_iff.mp fits
        exact .enter action position (period frequency rfl)
    | hedge action =>
        obtain ⟨daily, duration, delta⟩ := fits
        exact .hedge action delta duration (Option.some.inj daily)
    | exit => exact .exit
    | addTrade _ => contradiction
    | rebalance _ => contradiction
  · rintro (⟨action, position, period⟩ | ⟨action, delta, duration, rfl⟩ | _)
    · refine EnterAction.fits_iff.mpr ⟨position, ?_⟩
      rintro other ⟨⟩
      exact period
    · exact ⟨rfl, duration, delta⟩
    · exact trivial

/-- Dates have no frequency, so nothing can be hedged on them. -/
theorem Action.fits_date_iff {child : Guarded (List Date)} {action : Action} :
    action.Fits (.date child) ↔ action.OnDates := by
  constructor
  · intro fits
    cases action with
    | enter action => exact .enter action (EnterAction.fits_iff.mp fits).1
    | hedge action => exact absurd fits.1 (by simp [Trigger.frequency])
    | exit => exact .exit
    | addTrade _ => contradiction
    | rebalance _ => contradiction
  · rintro (⟨action, position⟩ | _)
    · exact EnterAction.fits_iff.mpr ⟨position, by simp [Trigger.frequency]⟩
    · exact trivial

theorem Action.isSupported_iff {action : Action} :
    action.isSupported = true ↔ action.OnAggregate := by
  constructor
  · intro supported
    cases action with
    | enter action => exact .enter action
    | hedge action => exact .hedge action
    | exit => exact .exit
    | addTrade _ => contradiction
    | rebalance _ => contradiction
  · rintro (_ | _ | _) <;> rfl

theorem Action.InPeriod.isSupported {frequency : String} {action : Action}
    (permitted : action.InPeriod frequency) : action.isSupported = true := by
  cases permitted <;> rfl

/-! ### Triggers -/

theorem LevelRequirement.isPortfolioGate_iff {requirement : LevelRequirement} :
    requirement.IsPortfolioGate ↔ requirement.InGrammar := by
  rw [IsPortfolioGate, InGrammar, Binary64.isZero_iff, portfolioLength]

namespace Trigger

/-- All that the rules ask of the trigger at this index by itself. -/
structure AcceptedAt (index : Nat) (trigger : Trigger) : Prop where
  topLevel : trigger.kind.isTopLevel = true
  composed : trigger.IsComposed
  supported : ∀ action ∈ trigger.actions, action.isSupported = true
  single : ∀ leaf ∈ trigger.leaves index,
    ∃ action, leaf.trigger.actions = [action] ∧ action.Fits leaf.trigger

theorem AcceptedAt.inGrammar {index : Nat} {trigger : Trigger}
    (accepted : trigger.AcceptedAt index) : trigger.InGrammar := by
  obtain ⟨topLevel, composed, supported, single⟩ := accepted
  cases trigger with
  | periodic periodic =>
      obtain ⟨frequency, actions⟩ := periodic
      obtain ⟨action, only, fits⟩ := single _ List.mem_cons_self
      obtain rfl : actions = [action] := only
      exact .periodic frequency action (Action.fits_periodic_iff.mp fits)
  | aggregate children own =>
      obtain ⟨⟨dates, actions⟩, gate, isGate, shape⟩ := composed
      have empty := LevelRequirement.isPortfolioGate_iff.mp isGate
      have known : ∀ action ∈ own, action.OnAggregate := by
        intro action member
        exact Action.isSupported_iff.mp (supported action member)
      -- The date child is a leaf wherever it stands.
      have dated : ∃ action, actions = [action] ∧ action.OnDates := by
        obtain rfl | rfl := shape
        all_goals
          obtain ⟨action, only, fits⟩ := single _ List.mem_cons_self
          exact ⟨action, only, Action.fits_date_iff.mp fits⟩
      obtain ⟨action, rfl, permitted⟩ := dated
      obtain rfl | rfl := shape
      · exact .datesFirst dates action gate own permitted empty known
      · exact .gateFirst dates action gate own permitted empty known
  | date _ => contradiction
  | portfolio _ => contradiction
  | market _ => contradiction
  | risk _ => contradiction

/-- Of an aggregate with two such children, the dates are the only leaf. -/
theorem leaf_eq_of_pair {children : List Trigger} {own : List Action} {index : Nat} {leaf : Leaf}
    {dates : Guarded (List Date)} {gate : Guarded LevelRequirement}
    (shape : children = [.date dates, .portfolio gate] ∨
      children = [.portfolio gate, .date dates])
    (member : leaf ∈ (aggregate children own).leaves index) : leaf.trigger = .date dates := by
  obtain ⟨position, child, placed, leafy, rfl⟩ := mem_leaves_aggregate_iff.mp member
  have among := List.mem_of_getElem? placed
  obtain rfl | rfl := shape <;> grind [kind]

theorem acceptedAt_pair {index : Nat} {dates : List Date} {action : Action} {gate : Guarded LevelRequirement}
    {own : List Action} {children : List Trigger}
    (shape : children = [.date ⟨dates, [action]⟩, .portfolio gate] ∨
      children = [.portfolio gate, .date ⟨dates, [action]⟩])
    (permitted : action.OnDates) (empty : gate.requirement.InGrammar)
    (known : ∀ action ∈ own, action.OnAggregate) : (aggregate children own).AcceptedAt index where
  topLevel := rfl
  composed := ⟨_, gate, LevelRequirement.isPortfolioGate_iff.mpr empty, shape⟩
  supported := by
    intro action member
    exact Action.isSupported_iff.mpr (known action member)
  single := by
    intro leaf member
    rw [leaf_eq_of_pair shape member]
    exact ⟨action, rfl, Action.fits_date_iff.mpr permitted⟩

theorem InGrammar.acceptedAt {trigger : Trigger} (h : trigger.InGrammar) (index : Nat) :
    trigger.AcceptedAt index := by
  cases h with
  | periodic frequency action permitted =>
      refine ⟨rfl, trivial, ?_, ?_⟩
      · intro other member
        obtain rfl := List.mem_singleton.mp member
        exact permitted.isSupported
      · intro leaf member
        obtain rfl := List.mem_singleton.mp member
        exact ⟨action, rfl, Action.fits_periodic_iff.mpr permitted⟩
  | datesFirst dates action gate own permitted empty known =>
      exact acceptedAt_pair (.inl rfl) permitted empty known
  | gateFirst dates action gate own permitted empty known =>
      exact acceptedAt_pair (.inr rfl) permitted empty known

theorem acceptedAt_iff {index : Nat} {trigger : Trigger} :
    trigger.AcceptedAt index ↔ trigger.InGrammar :=
  ⟨AcceptedAt.inGrammar, fun h => h.acceptedAt index⟩

end Trigger

/-! ### Strategies -/

namespace Strategy

variable {strategy : Strategy}

theorem ownActionKinds_eq :
    strategy.ownActionKinds = (strategy.triggers.flatMap Trigger.actions).map Action.kind := by
  rw [ownActionKinds, List.map_flatMap]

/-- The rules for leaves reach every leaf through the trigger that contributes it. -/
theorem accepted_iff_acceptedAt :
    strategy.Accepted ↔
      strategy.initialPortfolio = [] ∧ strategy.triggers.length ≤ maxTriggers ∧
        (∀ (index : Nat) (trigger : Trigger), strategy.triggers[index]? = some trigger →
          trigger.AcceptedAt index) ∧ strategy.ownActionKinds.Nodup := by
  constructor
  · intro accepted
    refine ⟨accepted.noPositions, accepted.atMostThree, ?_, accepted.kindsOnce⟩
    intro index trigger found
    have member := List.mem_of_getElem? found
    refine ⟨accepted.topLevel trigger member, accepted.composed trigger member,
      accepted.supported trigger member, ?_⟩
    intro leaf contributed
    exact accepted.single leaf (mem_leaves_iff.mpr ⟨index, trigger, found, contributed⟩)
  · rintro ⟨noPositions, atMostThree, triggers, kindsOnce⟩
    have each (trigger : Trigger) (member : trigger ∈ strategy.triggers) :
        ∃ index, trigger.AcceptedAt index := by
      obtain ⟨index, found⟩ := List.mem_iff_getElem?.mp member
      exact ⟨index, triggers index trigger found⟩
    refine ⟨noPositions, atMostThree, ?_, ?_, ?_, kindsOnce, ?_⟩
    · intro trigger member
      obtain ⟨index, accepted⟩ := each trigger member
      exact accepted.topLevel
    · intro trigger member
      obtain ⟨index, accepted⟩ := each trigger member
      exact accepted.composed
    · intro trigger member
      obtain ⟨index, accepted⟩ := each trigger member
      exact accepted.supported
    · intro leaf member
      obtain ⟨index, trigger, found, contributed⟩ := mem_leaves_iff.mp member
      exact (triggers index trigger found).single leaf contributed

/-- The grammar of triggers, and the rules for all of them together. -/
theorem accepted_iff_triggers_inGrammar :
    strategy.Accepted ↔ strategy.initialPortfolio = [] ∧ strategy.triggers.length ≤ maxTriggers ∧
      (∀ trigger ∈ strategy.triggers, trigger.InGrammar) ∧ strategy.ownActionKinds.Nodup := by
  have triggers : (∀ (index : Nat) (trigger : Trigger),
      strategy.triggers[index]? = some trigger → trigger.InGrammar) ↔
        ∀ trigger ∈ strategy.triggers, trigger.InGrammar := by
    simp only [List.mem_iff_getElem?]
    constructor
    · rintro each trigger ⟨index, found⟩
      exact each index trigger found
    · intro each index trigger found
      exact each trigger ⟨index, found⟩
  simp only [accepted_iff_acceptedAt, Trigger.acceptedAt_iff, triggers]

/-- The gate lets through exactly the grammar, among strategies whose numbers are finite. -/
theorem isSupported_iff_inGrammar (strategy : Strategy) :
    strategy.isSupported = true ↔ strategy.InGrammar := by
  rw [isSupported, List.isEmpty_iff, ← diagnostics_eq_nil_iff, ← accepted_iff,
    accepted_iff_acceptedAt]
  simp only [Trigger.acceptedAt_iff, ownActionKinds_eq]
  constructor
  · rintro ⟨noPositions, atMostThree, triggers, kindsOnce⟩
    refine ⟨noPositions, atMostThree, ?_, kindsOnce⟩
    intro trigger member
    obtain ⟨index, found⟩ := List.mem_iff_getElem?.mp member
    exact triggers index trigger found
  · rintro ⟨noPositions, atMostThree, triggers, kindsOnce⟩
    refine ⟨noPositions, atMostThree, ?_, kindsOnce⟩
    intro index trigger found
    exact triggers trigger (List.mem_of_getElem? found)

end Strategy

end VolBacktest
