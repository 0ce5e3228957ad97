import VolBacktest.Proofs.Rules.Tally
import VolBacktest.Rules.Leaf

/-!
# Codes of a report

The rules for the shape of a strategy have codes with `V`, the rules for leaves have codes with `T`.
The entries of a report that concern leaves can therefore be told by their codes alone.
-/

namespace VolBacktest

theorem mem_reportUnless_iff {condition : Prop} [Decidable condition]
    {violation reported : Violation} :
    reported ∈ reportUnless condition violation ↔ ¬condition ∧ reported = violation := by
  rw [reportUnless]
  by_cases kept : condition
  · simp [kept]
  · simp [kept]

/-- The entry has the code of a rule for leaves. -/
def Diagnostic.HasLeafCode (diagnostic : Diagnostic) : Prop := diagnostic.code.startsWith "T"

instance : DecidablePred Diagnostic.HasLeafCode := fun diagnostic =>
  inferInstanceAs (Decidable (diagnostic.code.startsWith "T" = true))

/-- The rules for leaves, as opposed to the rules for the shape of a strategy. -/
def Breach.isOfLeaf : Breach → Bool
  | actionCount _ _ | enterDuration _ _ | enterInstrument _ | enterUnsized | hedgeDuration _ _
  | hedgeRisk _ | hedgeFrequency _ | unsupportedAction _ => true
  | initialPositions _ | tooManyTriggers _ | topLevelKind _ | childCount _ | dateChildCount _
  | portfolioChildCount _ | portfolioGate _ _ | unsupportedOwnAction _ | repeatedAction _ _ => false

theorem Violation.hasLeafCode_iff {violation : Violation} :
    violation.diagnostic.HasLeafCode ↔ violation.breach.isOfLeaf = true := by
  rw [Diagnostic.HasLeafCode, Violation.diagnostic]
  cases violation.breach <;> simp [Breach.code, Breach.isOfLeaf]

/-! ### Rules for leaves -/

theorem EnterAction.isOfLeaf_of_mem_breaches {trigger : Trigger} {action : EnterAction}
    {breach : Breach} (member : breach ∈ action.breaches trigger) : breach.isOfLeaf = true := by
  simp only [breaches, List.mem_append] at member
  obtain (duration | instrument) | size := member
  · cases trigger <;> grind [Breach.isOfLeaf]
  · grind [Breach.isOfLeaf]
  · grind [Breach.isOfLeaf]

theorem HedgeAction.isOfLeaf_of_mem_breaches {trigger : Trigger} {action : HedgeAction}
    {breach : Breach} (member : breach ∈ action.breaches trigger) : breach.isOfLeaf = true := by
  simp only [breaches, List.mem_append] at member
  grind [Breach.isOfLeaf]

theorem Action.isOfLeaf_of_mem_breaches {trigger : Trigger} {action : Action} {breach : Breach}
    (member : breach ∈ action.breaches trigger) : breach.isOfLeaf = true := by
  cases action with
  | enter action => exact EnterAction.isOfLeaf_of_mem_breaches member
  | hedge action => exact HedgeAction.isOfLeaf_of_mem_breaches member
  | exit => cases member
  | addTrade _ =>
      obtain rfl := List.mem_singleton.mp member
      rfl
  | rebalance _ =>
      obtain rfl := List.mem_singleton.mp member
      rfl

theorem Trigger.isOfLeaf_of_mem_leafBreaches {trigger : Trigger} {breach : Breach}
    (member : breach ∈ trigger.leafBreaches) : breach.isOfLeaf = true := by
  rw [leafBreaches, List.mem_append, List.mem_flatMap] at member
  obtain count | ⟨action, -, broken⟩ := member
  · by_cases single : trigger.actions.length = 1
    · simp [single] at count
    · rw [if_neg single, List.mem_singleton] at count
      rw [count]
      rfl
  · exact Action.isOfLeaf_of_mem_breaches broken

/-! ### Rules for the shape -/

namespace Trigger

variable {trigger : Trigger} {index : Nat} {violation : Violation}

theorem isOfLeaf_of_mem_gateViolations {position : Nat}
    (member : violation ∈ trigger.gateViolations index position) :
    violation.breach.isOfLeaf = false := by
  cases trigger with
  | portfolio t =>
      obtain ⟨-, rfl⟩ := mem_reportUnless_iff.mp member
      rfl
  | date _ => cases member
  | periodic _ => cases member
  | aggregate _ _ => cases member
  | market _ => cases member
  | risk _ => cases member

theorem isOfLeaf_of_mem_compositionViolations
    (member : violation ∈ trigger.compositionViolations index) :
    violation.breach.isOfLeaf = false := by
  cases trigger with
  | aggregate children own =>
      simp only [compositionViolations, List.mem_append, List.mem_flatMap,
        mem_reportUnless_iff] at member
      obtain ((⟨-, rfl⟩ | ⟨-, rfl⟩) | ⟨-, rfl⟩) | ⟨_, -, gate⟩ := member
      · rfl
      · rfl
      · rfl
      · exact isOfLeaf_of_mem_gateViolations gate
  | date _ => cases member
  | portfolio _ => cases member
  | periodic _ => cases member
  | market _ => cases member
  | risk _ => cases member

end Trigger

namespace Strategy

variable {strategy : Strategy} {violation : Violation}

theorem isOfLeaf_of_mem_shapeViolations (member : violation ∈ strategy.shapeViolations) :
    violation.breach.isOfLeaf = false := by
  simp only [shapeViolations, repeatedKindViolations_eq, Trigger.topLevelViolations,
    Trigger.ownActionViolations, List.mem_append, List.mem_flatMap, mem_reportUnless_iff] at member
  obtain ((((⟨-, rfl⟩ | ⟨-, rfl⟩) | ⟨_, -, -, rfl⟩) | ⟨_, -, composition⟩) |
    ⟨_, -, _, -, -, rfl⟩) | ⟨_, -, -, rfl⟩ := member
  · rfl
  · rfl
  · rfl
  · exact Trigger.isOfLeaf_of_mem_compositionViolations composition
  · rfl
  · rfl

theorem isOfLeaf_of_mem_leafViolations (member : violation ∈ strategy.leafViolations) :
    violation.breach.isOfLeaf = true := by
  obtain ⟨leaf, -, atLeaf⟩ := List.mem_flatMap.mp member
  obtain ⟨breach, broken, rfl⟩ := List.mem_map.mp atLeaf
  exact Trigger.isOfLeaf_of_mem_leafBreaches broken

/-- The entries with a code of the rules for leaves are what these rules report. -/
theorem filter_hasLeafCode_diagnostics (strategy : Strategy) :
    strategy.diagnostics.filter (·.HasLeafCode) =
      strategy.leafViolations.map Violation.diagnostic := by
  have shape : (strategy.shapeViolations.map Violation.diagnostic).filter (·.HasLeafCode) = [] := by
    simp only [List.filter_eq_nil_iff, List.forall_mem_map, decide_eq_true_eq,
      Violation.hasLeafCode_iff]
    intro violation member
    simp [isOfLeaf_of_mem_shapeViolations member]
  have leaf : (strategy.leafViolations.map Violation.diagnostic).filter (·.HasLeafCode) =
      strategy.leafViolations.map Violation.diagnostic := by
    simp only [List.filter_eq_self, List.forall_mem_map, decide_eq_true_eq,
      Violation.hasLeafCode_iff]
    exact fun violation member => isOfLeaf_of_mem_leafViolations member
  rw [diagnostics, violations, List.map_append, List.filter_append, shape, leaf, List.nil_append]

end Strategy

end VolBacktest
