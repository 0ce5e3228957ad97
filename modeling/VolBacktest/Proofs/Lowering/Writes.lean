import VolBacktest.Proofs.Lowering.LastWrite

/-!
# The writes that make up a configuration

A configuration depends on its strategy through three sequences: the positions that the leaves
enter, the series that the triggers give to each side, and the hedges. Of each the last element is
what stays. Where a leaf stands, and what else stands between two writes, is nowhere to be seen in
the configuration.
-/

namespace VolBacktest

/-- What an enter action writes to the initial value. -/
def EnterAction.initialValue (entry : EnterAction) : Option Binary64 :=
  if entry.quantityType = some .nav then some (entry.quantity.getD .zero) else none

namespace Trigger

/-- The leaves that the trigger contributes, wherever they stand. -/
def leafTriggers : Trigger → List Trigger
  | .aggregate children _ => children.filter fun child => child.kind ≠ .portfolio
  | trigger => [trigger]

/-- The position that the trigger enters if it is a leaf. -/
def entry (trigger : Trigger) : Option EnterAction :=
  match trigger.actions.head? with
  | some (.enter action) => some action
  | _ => none

/-- The hedge that the trigger asks for if it is a leaf. -/
def hedge (trigger : Trigger) : Option DeltaHedge :=
  match trigger.actions.head? with
  | some (.hedge _) => (trigger.frequency.bind HedgeFrequency.ofCode).map DeltaHedge.mk
  | _ => none

theorem map_trigger_leaves (trigger : Trigger) (index : Nat) :
    (trigger.leaves index).map Leaf.trigger = trigger.leafTriggers := by
  cases trigger with
  | aggregate children actions =>
      have kept := List.filter_map (p := fun child : Trigger => decide (child.kind ≠ .portfolio))
        (f := Prod.fst) (l := children.zipIdx)
      rw [List.zipIdx_map_fst] at kept
      rw [leafTriggers, kept, leaves, List.map_map]
      rfl
  | date _ => rfl
  | portfolio _ => rfl
  | periodic _ => rfl
  | market _ => rfl
  | risk _ => rfl

end Trigger

namespace Config

/-- A configuration has no parts but those that are observed. -/
theorem eq_of_observed {a b : Config} (parameters : a.parameters = b.parameters)
    (series : ∀ side, a.series side = b.series side) (hedge : a.hedge = b.hedge)
    (initialValue : a.initialValue = b.initialValue) : a = b := by
  have tradeIn := series .tradeIn
  have tradeOut := series .tradeOut
  cases a
  cases b
  simp_all [Config.parameters, Config.series]

end Config

namespace Strategy

/-- The positions that are entered, leaf by leaf. -/
def entries (strategy : Strategy) : List EnterAction := strategy.leaves.filterMap Leaf.entry

/-- The series that are given to a side, trigger by trigger. -/
def seriesOn (strategy : Strategy) (side : SignalSide) : List (List SignalItem) :=
  strategy.triggers.filterMap (Trigger.items · side)

/-- The hedges that are asked for, leaf by leaf. -/
def hedges (strategy : Strategy) : List DeltaHedge := strategy.leaves.filterMap Leaf.hedge

variable (strategy : Strategy)

theorem map_trigger_leaves :
    strategy.leaves.map Leaf.trigger = strategy.triggers.flatMap Trigger.leafTriggers := by
  simp only [leaves, List.map_flatMap, Trigger.map_trigger_leaves]
  conv => rhs; rw [← List.zipIdx_map_fst 0 strategy.triggers, List.flatMap_map]

theorem entries_eq :
    strategy.entries = strategy.triggers.flatMap fun trigger =>
      trigger.leafTriggers.filterMap Trigger.entry := by
  rw [← List.filterMap_flatMap, ← map_trigger_leaves, List.filterMap_map]
  rfl

theorem hedges_eq :
    strategy.hedges = strategy.triggers.flatMap fun trigger =>
      trigger.leafTriggers.filterMap Trigger.hedge := by
  rw [← List.filterMap_flatMap, ← map_trigger_leaves, List.filterMap_map]
  rfl

theorem seriesOn_eq (side : SignalSide) : strategy.seriesOn side =
    (strategy.triggers.map (Trigger.items · side)).filterMap id := by
  rw [List.filterMap_map]
  rfl

theorem lastEntry_eq_getLast? : strategy.lastEntry = strategy.entries.getLast? := by
  rw [lastEntry, entries, List.getLast?_filterMap]

theorem series_configuration_eq_getLast? (side : SignalSide) :
    strategy.configuration.series side = (strategy.seriesOn side).getLast?.getD [] := by
  rw [series_configuration, seriesOn, List.getLast?_filterMap]

theorem hedge_configuration_eq_getLast? :
    strategy.configuration.hedge = strategy.hedges.getLast? := by
  rw [hedge_configuration, hedges, List.getLast?_filterMap]

theorem initialValue_configuration_eq_getLast? :
    strategy.configuration.initialValue =
      (strategy.entries.filterMap EnterAction.initialValue).getLast?.getD .zero := by
  have written : strategy.entries.filterMap EnterAction.initialValue =
      strategy.leaves.filterMap Leaf.initialValue := List.filterMap_filterMap
  rw [initialValue_configuration, written, List.getLast?_filterMap]

/-- Strategies with the same writes have the same configuration. -/
theorem configuration_congr {first second : Strategy} (entries : first.entries = second.entries)
    (series : ∀ side, first.seriesOn side = second.seriesOn side)
    (hedges : first.hedges = second.hedges) : first.configuration = second.configuration := by
  apply Config.eq_of_observed
  · rw [parameters_configuration, parameters_configuration, lastEntry_eq_getLast?,
      lastEntry_eq_getLast?, entries]
  · intro side
    rw [series_configuration_eq_getLast?, series_configuration_eq_getLast?, series]
  · rw [hedge_configuration_eq_getLast?, hedge_configuration_eq_getLast?, hedges]
  · rw [initialValue_configuration_eq_getLast?, initialValue_configuration_eq_getLast?, entries]

end Strategy

end VolBacktest
