import Mathlib.Data.List.Nodup
import VolBacktest.Proofs.Rules.Tally
import VolBacktest.Rules.Leaf

/-!
# Strategies that break no rule

`Strategy.Accepted` says without reports what the engine takes: at most three triggers, each
periodic or a pair of dates with a condition on an empty portfolio, one executable action on every
leaf, and no kind of action twice among the own actions of the triggers. `Strategy.accepted_iff`
identifies it with an empty report. Every rule is treated alone, by a lemma on when it reports
nothing.
-/

namespace VolBacktest

theorem reportUnless_eq_nil_iff {condition : Prop} [Decidable condition] {violation : Violation} :
    reportUnless condition violation = [] ↔ condition := by
  rw [reportUnless]
  split <;> simp_all

/-- A rule that is applied to each element reports nothing if every element keeps it; where the
element stands only matters for the report. -/
theorem flatMap_zipIdx_eq_nil_iff {α β : Type} {keeps : α → Prop} (report : α → Nat → List β)
    (one : ∀ a index, report a index = [] ↔ keeps a) (items : List α) :
    (items.zipIdx.flatMap fun item => report item.1 item.2) = [] ↔ ∀ a ∈ items, keeps a := by
  rw [List.flatMap_eq_nil_iff]
  constructor
  · intro silent a member
    obtain ⟨index, found⟩ := List.mem_iff_getElem?.mp member
    exact (one a index).mp (silent (a, index) (List.mem_zipIdx_iff_getElem?.mpr found))
  · rintro kept ⟨a, index⟩ member
    have found := List.mem_zipIdx_iff_getElem?.mp member
    exact (one a index).mpr (kept a (List.mem_of_getElem? found))

/-! ### Actions of a leaf -/

/-- A sized position in equity volatility, for the period of a periodic trigger. -/
def EnterAction.Fits (trigger : Trigger) (action : EnterAction) : Prop :=
  (∀ frequency, trigger.frequency = some frequency → action.duration = some frequency) ∧
    (∀ instrument ∈ action.instruments, instrument.kind.isEquityVol) ∧
      action.quantity.isSome ∧ action.quantityType.isSome

/-- A daily hedge of delta on a daily trigger. -/
def HedgeAction.Fits (trigger : Trigger) (action : HedgeAction) : Prop :=
  trigger.frequency = some businessDay ∧ action.duration = some businessDay ∧
    action.risk = .eqDelta

/-- The engine can execute the action for the trigger. -/
def Action.Fits (trigger : Trigger) : Action → Prop
  | .enter action => action.Fits trigger
  | .hedge action => action.Fits trigger
  | .exit => True
  | .addTrade _ => False
  | .rebalance _ => False

theorem EnterAction.breaches_eq_nil_iff {trigger : Trigger} {action : EnterAction} :
    action.breaches trigger = [] ↔ action.Fits trigger := by
  unfold breaches Fits
  rw [List.append_eq_nil_iff, List.append_eq_nil_iff, and_assoc]
  refine and_congr ?duration (and_congr ?instruments ?size)
  case duration => cases trigger <;> simp [Trigger.frequency]
  case instruments =>
    split
    next bad found =>
      have unsuitable := List.find?_some found
      have member := List.mem_of_find?_eq_some found
      refine iff_of_false (List.cons_ne_nil _ _) ?_
      intro suitable
      simp [suitable bad member] at unsuitable
    next missing => simpa using missing
  case size => cases action.quantity <;> cases action.quantityType <;> simp

theorem HedgeAction.breaches_eq_nil_iff {trigger : Trigger} {action : HedgeAction} :
    action.breaches trigger = [] ↔ action.Fits trigger := by
  rw [breaches, Fits]
  simp only [List.append_eq_nil_iff, ite_eq_right_iff, ite_eq_left_iff, List.cons_ne_nil,
    imp_false, not_or, not_not]
  constructor
  · rintro ⟨⟨⟨-, same⟩, delta⟩, daily⟩
    exact ⟨daily, same ▸ daily, delta⟩
  · rintro ⟨daily, duration, delta⟩
    exact ⟨⟨⟨by simp [daily], daily.trans duration.symm⟩, delta⟩, daily⟩

theorem Action.breaches_eq_nil_iff {trigger : Trigger} {action : Action} :
    action.breaches trigger = [] ↔ action.Fits trigger := by
  cases action with
  | enter action => exact EnterAction.breaches_eq_nil_iff
  | hedge action => exact HedgeAction.breaches_eq_nil_iff
  | exit => exact iff_of_true rfl trivial
  | addTrade action => exact iff_of_false (List.cons_ne_nil _ _) id
  | rebalance action => exact iff_of_false (List.cons_ne_nil _ _) id

theorem Trigger.leafBreaches_eq_nil_iff {trigger : Trigger} :
    trigger.leafBreaches = [] ↔ ∃ action, trigger.actions = [action] ∧ action.Fits trigger := by
  rw [leafBreaches]
  simp only [List.append_eq_nil_iff, ite_eq_left_iff, List.cons_ne_nil, imp_false, not_not,
    List.flatMap_eq_nil_iff, Action.breaches_eq_nil_iff, List.length_eq_one_iff]
  constructor
  · rintro ⟨⟨action, single⟩, fits⟩
    exact ⟨action, single, fits action (by simp [single])⟩
  · rintro ⟨action, single, fits⟩
    refine ⟨⟨action, single⟩, ?_⟩
    intro other member
    rw [single, List.mem_singleton] at member
    exact member ▸ fits

/-! ### Composition of aggregates -/

/-- An aggregate pairs dates with a condition on an empty portfolio, in either order. -/
def Trigger.IsComposed : Trigger → Prop
  | .aggregate children _ => ∃ dates gate, gate.requirement.IsPortfolioGate ∧
      (children = [.date dates, .portfolio gate] ∨ children = [.portfolio gate, .date dates])
  | _ => True

/-- Dates with one action, gated by a condition on an empty portfolio. -/
def Trigger.gated (dates : List Date) (direction : Direction) (action : Action) : Trigger :=
  .aggregate [.date ⟨dates, [action]⟩, .portfolio ⟨⟨portfolioLength, .zero, direction⟩, []⟩] []

/-- A date in winter. -/
def Date.january : Date := ⟨2020, 1, 2, by decide⟩

/-- A date in the summer after it. -/
def Date.july : Date := ⟨2020, 7, 1, by decide⟩

/-- Two children of which one has each role are such a pair. -/
theorem AggregateParts.pair_iff {children : List Trigger} :
    (children.length = 2 ∧ (ofChildren children).dates.length = 1 ∧
        (ofChildren children).portfolios.length = 1) ↔
      ∃ dates gate, children = [.date dates, .portfolio gate] ∨
        children = [.portfolio gate, .date dates] := by
  constructor
  · rintro ⟨two, oneDate, onePortfolio⟩
    obtain ⟨a, b, rfl⟩ := List.length_eq_two.mp two
    cases a <;> cases b <;> simp_all [List.filterMap_cons, Trigger.asDate, Trigger.asPortfolio]
  · rintro ⟨dates, gate, rfl | rfl⟩ <;>
      simp [List.filterMap_cons, Trigger.asDate, Trigger.asPortfolio]

theorem Trigger.gateViolations_eq_nil_iff {index position : Nat} {child : Trigger} :
    child.gateViolations index position = [] ↔
      ∀ gate, child = .portfolio gate → gate.requirement.IsPortfolioGate := by
  cases child <;> simp [gateViolations, reportUnless_eq_nil_iff]

theorem Trigger.compositionViolations_eq_nil_iff {index : Nat} {trigger : Trigger} :
    trigger.compositionViolations index = [] ↔ trigger.IsComposed := by
  cases trigger with
  | aggregate children actions =>
      have gates := flatMap_zipIdx_eq_nil_iff
        (fun child position => child.gateViolations index position)
        (fun _ _ => gateViolations_eq_nil_iff) children
      simp only [compositionViolations, List.append_eq_nil_iff, reportUnless_eq_nil_iff,
        IsComposed]
      rw [gates]
      constructor
      · rintro ⟨⟨⟨two, oneDate⟩, onePortfolio⟩, kept⟩
        obtain ⟨dates, gate, shape⟩ := AggregateParts.pair_iff.mp ⟨two, oneDate, onePortfolio⟩
        refine ⟨dates, gate, ?_, shape⟩
        obtain rfl | rfl := shape <;> exact kept (.portfolio gate) (by simp) gate rfl
      · rintro ⟨dates, gate, isGate, shape⟩
        obtain ⟨two, oneDate, onePortfolio⟩ := AggregateParts.pair_iff.mpr ⟨dates, gate, shape⟩
        refine ⟨⟨⟨two, oneDate⟩, onePortfolio⟩, ?_⟩
        rintro child member other rfl
        have same : other = gate := by
          obtain rfl | rfl := shape <;> simpa using member
        exact same ▸ isGate
  | date _ => exact iff_of_true rfl trivial
  | portfolio _ => exact iff_of_true rfl trivial
  | periodic _ => exact iff_of_true rfl trivial
  | market _ => exact iff_of_true rfl trivial
  | risk _ => exact iff_of_true rfl trivial

/-! ### Own actions -/

theorem Trigger.ownActionViolations_eq_nil_iff {index : Nat} {trigger : Trigger} :
    trigger.ownActionViolations index = [] ↔ ∀ action ∈ trigger.actions, action.isSupported :=
  flatMap_zipIdx_eq_nil_iff
    (fun (action : Action) position => reportUnless action.isSupported
      ((Breach.unsupportedOwnAction action.kind).at (.action index position)))
    (fun _ _ => reportUnless_eq_nil_iff) trigger.actions

theorem Strategy.repeatedKindViolations_eq_nil_iff {strategy : Strategy} :
    strategy.repeatedKindViolations = [] ↔ strategy.ownActionKinds.Nodup := by
  rw [repeatedKindViolations_eq]
  simp only [List.flatMap_eq_nil_iff, reportUnless_eq_nil_iff, mem_firstOccurrences,
    List.nodup_iff_count_le_one]
  constructor
  · intro once kind
    by_cases member : kind ∈ strategy.ownActionKinds
    · exact once kind member
    · simp [List.count_eq_zero.mpr member]
  · intro once kind _
    exact once kind

/-! ### Strategies -/

namespace Strategy

/-- The engine takes the strategy as it is. -/
structure Accepted (strategy : Strategy) : Prop where
  noPositions : strategy.initialPortfolio = []
  atMostThree : strategy.triggers.length ≤ maxTriggers
  topLevel : ∀ trigger ∈ strategy.triggers, trigger.kind.isTopLevel
  composed : ∀ trigger ∈ strategy.triggers, trigger.IsComposed
  supported : ∀ trigger ∈ strategy.triggers, ∀ action ∈ trigger.actions, action.isSupported
  kindsOnce : strategy.ownActionKinds.Nodup
  single : ∀ leaf ∈ strategy.leaves,
    ∃ action, leaf.trigger.actions = [action] ∧ action.Fits leaf.trigger

theorem shapeViolations_eq_nil_iff {strategy : Strategy} :
    strategy.shapeViolations = [] ↔
      strategy.initialPortfolio = [] ∧ strategy.triggers.length ≤ maxTriggers ∧
        (∀ trigger ∈ strategy.triggers, trigger.kind.isTopLevel) ∧
        (∀ trigger ∈ strategy.triggers, trigger.IsComposed) ∧
        (∀ trigger ∈ strategy.triggers, ∀ action ∈ trigger.actions, action.isSupported) ∧
        strategy.ownActionKinds.Nodup := by
  have topLevel := flatMap_zipIdx_eq_nil_iff
    (fun trigger index => trigger.topLevelViolations index)
    (fun _ _ => reportUnless_eq_nil_iff) strategy.triggers
  have composed := flatMap_zipIdx_eq_nil_iff
    (fun trigger index => trigger.compositionViolations index)
    (fun _ _ => Trigger.compositionViolations_eq_nil_iff) strategy.triggers
  have supported := flatMap_zipIdx_eq_nil_iff
    (fun trigger index => trigger.ownActionViolations index)
    (fun _ _ => Trigger.ownActionViolations_eq_nil_iff) strategy.triggers
  simp only [shapeViolations, List.append_eq_nil_iff, reportUnless_eq_nil_iff,
    List.isEmpty_iff, repeatedKindViolations_eq_nil_iff]
  rw [topLevel, composed, supported]
  simp only [and_assoc]

theorem leafViolations_eq_nil_iff {strategy : Strategy} :
    strategy.leafViolations = [] ↔ ∀ leaf ∈ strategy.leaves,
      ∃ action, leaf.trigger.actions = [action] ∧ action.Fits leaf.trigger := by
  simp only [leafViolations, Leaf.violations, List.flatMap_eq_nil_iff, List.map_eq_nil_iff,
    Trigger.leafBreaches_eq_nil_iff]

theorem diagnostics_eq_nil_iff {strategy : Strategy} :
    strategy.diagnostics = [] ↔ strategy.violations = [] :=
  List.map_eq_nil_iff

theorem accepted_iff {strategy : Strategy} : strategy.Accepted ↔ strategy.diagnostics = [] := by
  rw [diagnostics_eq_nil_iff, violations, List.append_eq_nil_iff, shapeViolations_eq_nil_iff,
    leafViolations_eq_nil_iff]
  constructor
  · intro h
    exact ⟨⟨h.noPositions, h.atMostThree, h.topLevel, h.composed, h.supported, h.kindsOnce⟩,
      h.single⟩
  · rintro ⟨⟨noPositions, atMostThree, topLevel, composed, supported, kindsOnce⟩, single⟩
    exact ⟨noPositions, atMostThree, topLevel, composed, supported, kindsOnce, single⟩

end Strategy

end VolBacktest
