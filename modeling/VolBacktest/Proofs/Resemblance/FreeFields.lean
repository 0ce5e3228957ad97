import VolBacktest.Proofs.Resemblance.Strategies

/-!
# Free-form fields are carried untouched

No rule and no step of lowering looks at what an instrument has beside its kind, so a strategy with
changed free-form fields resembles the unchanged one: it has the same report and compiles to the
same configuration, with the fields changed there too. The instruments of a position thus reach the
configuration as they are, in their order, none dropped or merged.
-/

namespace VolBacktest

variable (f : FreeFields → FreeFields)

namespace Trigger

/-- As a child of an aggregate. -/
theorem resemblesInside_mapFields (child : Trigger) :
    child.ResemblesInside f (child.mapFields f) where
  kind := child.kind_mapFields f
  frequency := child.frequency_mapFields f
  dates := by cases child <;> rfl
  gate := by cases child <;> rfl
  actions _ := child.actions_mapFields f

/-- As a trigger of the strategy. -/
theorem resembles_mapFields (trigger : Trigger) : trigger.Resembles f (trigger.mapFields f) := by
  cases trigger with
  | aggregate children own =>
      rw [mapFields, mapFieldsList_eq_map]
      apply Resembles.aggregate _ (Action.map_kind_mapFields f own)
      rw [List.forall₂_map_right_iff, List.forall₂_same]
      exact fun child _ => child.resemblesInside_mapFields f
  | _ =>
      exact .plain nofun (kind_mapFields f _) (frequency_mapFields f _) (actions_mapFields f _)

end Trigger

namespace Strategy

theorem resembles_mapFields (strategy : Strategy) :
    strategy.Resembles f (strategy.mapFields f) where
  initialPortfolio := List.length_map _
  triggers := by
    rw [mapFields, List.forall₂_map_right_iff, List.forall₂_same]
    exact fun trigger _ => trigger.resembles_mapFields f

/-- Changing the free-form fields of all instruments changes the same fields in the configuration
and nothing else: no violation, no error, no other part of the configuration. The numbers of a
strategy are finite. -/
theorem free_fields_carried (strategy : Strategy) :
    (strategy.mapFields f).diagnostics = strategy.diagnostics ∧
      (strategy.mapFields f).lower = strategy.lower.map (Config.mapFields f) ∧
        (strategy.mapFields f).compile = strategy.compile.map (Config.mapFields f) := by
  have alike := strategy.resembles_mapFields f
  exact ⟨alike.diagnostics, alike.lower, alike.compile⟩

end Strategy

end VolBacktest
