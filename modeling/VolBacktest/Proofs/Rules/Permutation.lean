import VolBacktest.Proofs.Resemblance.Strategies
import VolBacktest.Proofs.Rules.Passes
import VolBacktest.Proofs.Rules.Report

/-!
# The order of what is reported on

The rules do not look at the order of triggers, of the children of aggregates or of actions. Whatever is
put into another order, the report has the same codes with the same messages; only places, and the order of
the entries, may change. This does not need an accepted strategy. Where an item stands enters into places
alone, so the passes are compared by the breaches they find.
-/

namespace VolBacktest

/-- The same trigger, but for the order of its actions and, if it is an aggregate, of its children, which
may be permuted in themselves. -/
inductive Trigger.Permuted : Trigger → Trigger → Prop where
  | actions {trigger : Trigger} {actions : List Action} (order : trigger.actions.Perm actions) :
      Permuted trigger (trigger.withActions actions)
  | children {children middle others : List Trigger} {own changed : List Action}
      (inside : List.Forall₂ Permuted children middle) (order : middle.Perm others)
      (ownOrder : own.Perm changed) :
      Permuted (.aggregate children own) (.aggregate others changed)

/-- The same strategy, but for the order of its triggers and what is permuted inside them. -/
structure Strategy.Permuted (strategy other : Strategy) : Prop where
  initialPortfolio : other.initialPortfolio = strategy.initialPortfolio
  triggers : ∃ middle, List.Forall₂ Trigger.Permuted strategy.triggers middle ∧
    middle.Perm other.triggers

/-! ### Lists -/

/-- What is collected from related elements, in any order of theirs. -/
theorem perm_flatMap_of_forall₂ {α β : Type} {R : α → α → Prop} {view : α → List β}
    {items middle others : List α} (one : ∀ a b, R a b → (view a).Perm (view b))
    (related : List.Forall₂ R items middle) (order : middle.Perm others) :
    (items.flatMap view).Perm (others.flatMap view) := by
  refine List.Perm.trans ?_ (order.flatMap_right view)
  induction related generalizing others with
  | nil => exact .nil
  | cons head _ ih =>
      rw [List.flatMap_cons, List.flatMap_cons]
      exact (one _ _ head).append (ih (.refl _))

theorem perm_firstOccurrences {α : Type} [DecidableEq α] {items others : List α}
    (order : items.Perm others) : (firstOccurrences items).Perm (firstOccurrences others) := by
  rw [List.perm_ext_iff_of_nodup (nodup_firstOccurrences items) (nodup_firstOccurrences others)]
  intro a
  rw [mem_firstOccurrences, mem_firstOccurrences, order.mem_iff]

/-! ### One trigger -/

theorem map_breach_reportUnless {condition : Prop} [Decidable condition] (violation : Violation) :
    (reportUnless condition violation).map Violation.breach =
      if condition then [] else [violation.breach] := by
  rw [reportUnless]
  split <;> rfl

namespace Trigger

/-- What is wrong with a condition on the portfolio, wherever it stands. -/
def gateBreaches (child : Trigger) : List Breach :=
  (child.gateViolations 0 0).map Violation.breach

theorem map_breach_gateViolations (child : Trigger) (index position : Nat) :
    (child.gateViolations index position).map Violation.breach = child.gateBreaches := by
  cases child with
  | portfolio gate =>
      rw [gateBreaches, gateViolations, gateViolations, map_breach_reportUnless,
        map_breach_reportUnless]
      rfl
  | date | periodic | aggregate | market | risk => rfl

/-- What is wrong with a child as a leaf, which a condition on the portfolio is not. -/
def childBreaches (child : Trigger) : List Breach :=
  if child.kind = .portfolio then [] else child.leafBreaches

theorem breachesIn_leaves_aggregate (children : List Trigger) (own : List Action) :
    (aggregate children own).breachesIn .leaves = children.flatMap childBreaches := by
  rw [breachesIn, violationsIn, leaves_aggregate_eq, List.flatMap_assoc, List.map_flatMap]
  refine Eq.trans ?_ (flatMap_zipIdx_eq children childBreaches)
  congr 1
  funext item
  rw [childBreaches]
  by_cases gate : item.1.kind = .portfolio
  · rw [if_pos gate, if_pos gate]
    rfl
  · rw [if_neg gate, if_neg gate, List.flatMap_singleton, Leaf.violations, List.map_map]
    exact List.map_id _

theorem breachesIn_leaves_of_plain {trigger : Trigger} (plain : trigger.kind ≠ .aggregate) :
    trigger.breachesIn .leaves = trigger.leafBreaches := by
  rw [breachesIn, violationsIn, leaves_of_plain plain, List.flatMap_singleton, Leaf.violations,
    List.map_map]
  exact List.map_id _

theorem breachesIn_ownActions (trigger : Trigger) :
    trigger.breachesIn .ownActions = trigger.actions.flatMap fun action =>
      if action.isSupported then [] else [.unsupportedOwnAction action.kind] := by
  rw [breachesIn, violationsIn, ownActionViolations, List.map_flatMap]
  simp only [map_breach_reportUnless]
  exact flatMap_zipIdx_eq trigger.actions fun action =>
    if action.isSupported then [] else [Breach.unsupportedOwnAction action.kind]

namespace Permuted

variable {first second : Trigger}

theorem kind (permuted : first.Permuted second) : second.kind = first.kind := by
  cases permuted with
  | actions order => exact kind_withActions first _
  | children inside order ownOrder => rfl

theorem frequency (permuted : first.Permuted second) : second.frequency = first.frequency := by
  cases permuted with
  | actions order => cases first <;> rfl
  | children inside order ownOrder => rfl

theorem perm_actions (permuted : first.Permuted second) : first.actions.Perm second.actions := by
  cases permuted with
  | actions order => rwa [actions_withActions]
  | children inside order ownOrder => exact ownOrder

theorem gateBreaches (permuted : first.Permuted second) :
    second.gateBreaches = first.gateBreaches := by
  cases permuted with
  | actions order => cases first <;> rfl
  | children inside order ownOrder => rfl

/-- A leaf is judged by its kind, its frequency and its actions one by one. -/
theorem perm_leafBreaches (permuted : first.Permuted second) :
    first.leafBreaches.Perm second.leafBreaches := by
  have each : Action.breaches second = Action.breaches first := by
    funext action
    have same := action.breaches_mapFields (f := id) permuted.frequency
    rwa [Action.mapFields_id] at same
  rw [leafBreaches, leafBreaches, permuted.kind, permuted.perm_actions.length_eq, each]
  exact (permuted.perm_actions.flatMap_right _).append_left _

theorem perm_childBreaches (permuted : first.Permuted second) :
    first.childBreaches.Perm second.childBreaches := by
  rw [childBreaches, childBreaches, permuted.kind]
  split
  · exact .nil
  · exact permuted.perm_leafBreaches

/-- The composition of an aggregate is judged by how many children there are of each kind, and by the
conditions on the portfolio one by one. -/
theorem perm_composition {children middle others : List Trigger} (own changed : List Action)
    (inside : List.Forall₂ Permuted children middle) (order : middle.Perm others) :
    ((aggregate children own).breachesIn .composition).Perm
      ((aggregate others changed).breachesIn .composition) := by
  have kinds : (children.map Trigger.kind).Perm (others.map Trigger.kind) := by
    rw [← map_eq_of_forall₂ (fun _ _ same => same.kind) inside]
    exact order.map _
  have count (kind : TriggerKind) : children.countP (fun child => child.kind = kind) =
      others.countP fun child => child.kind = kind := by
    have same := kinds.countP_eq fun found => found = kind
    rwa [List.countP_map, List.countP_map] at same
  have length := kinds.length_eq
  rw [List.length_map, List.length_map] at length
  have conditions (items : List Trigger) :
      (items.zipIdx.flatMap fun item => item.1.gateViolations 0 item.2).map Violation.breach =
        items.flatMap Trigger.gateBreaches := by
    simp only [List.map_flatMap, map_breach_gateViolations]
    exact flatMap_zipIdx_eq items Trigger.gateBreaches
  simp only [breachesIn, violationsIn, compositionViolations, AggregateParts.length_dates,
    AggregateParts.length_portfolios, List.map_append, conditions, count, length]
  refine List.Perm.append_left _ (perm_flatMap_of_forall₂ ?_ inside order)
  intro a b same
  rw [same.gateBreaches]

/-- Whatever is permuted in a trigger, each pass finds the same breaches. -/
theorem perm_breachesIn (permuted : first.Permuted second) (pass : Pass) :
    (first.breachesIn pass).Perm (second.breachesIn pass) := by
  cases pass with
  | topLevel =>
      rw [breachesIn, breachesIn, violationsIn, violationsIn, topLevelViolations,
        topLevelViolations, permuted.kind]
  | composition =>
      cases permuted with
      | actions order => cases first <;> exact .refl _
      | children inside order ownOrder => exact perm_composition _ _ inside order
  | ownActions =>
      rw [breachesIn_ownActions, breachesIn_ownActions]
      exact permuted.perm_actions.flatMap_right _
  | leaves =>
      cases permuted with
      | actions order =>
          by_cases plain : first.kind = .aggregate
          · cases first with
            | aggregate children own =>
                rw [withActions, breachesIn_leaves_aggregate, breachesIn_leaves_aggregate]
            | _ => cases plain
          · rw [breachesIn_leaves_of_plain plain,
              breachesIn_leaves_of_plain (by rwa [kind_withActions])]
            exact (Permuted.actions order).perm_leafBreaches
      | children inside order ownOrder =>
          rw [breachesIn_leaves_aggregate, breachesIn_leaves_aggregate]
          exact perm_flatMap_of_forall₂ (fun _ _ => perm_childBreaches) inside order

end Permuted

end Trigger

/-! ### Strategies -/

namespace Strategy.Permuted

variable {strategy other : Strategy}

theorem length_triggers (permuted : strategy.Permuted other) :
    other.triggers.length = strategy.triggers.length := by
  obtain ⟨-, middle, inside, order⟩ := permuted
  rw [inside.length_eq, order.length_eq]

theorem perm_ownActionKinds (permuted : strategy.Permuted other) :
    strategy.ownActionKinds.Perm other.ownActionKinds := by
  obtain ⟨-, middle, inside, order⟩ := permuted
  exact perm_flatMap_of_forall₂ (fun _ _ same => same.perm_actions.map _) inside order

theorem perm_breachesIn (permuted : strategy.Permuted other) (pass : Pass) :
    ((strategy.violationsIn pass).map Violation.breach).Perm
      ((other.violationsIn pass).map Violation.breach) := by
  obtain ⟨-, middle, inside, order⟩ := permuted
  rw [map_breach_violationsIn, map_breach_violationsIn]
  exact perm_flatMap_of_forall₂ (fun _ _ same => same.perm_breachesIn pass) inside order

/-- Kinds are counted whatever their order, and named in the order of their first occurrences. -/
theorem perm_repeatedKindViolations (permuted : strategy.Permuted other) :
    strategy.repeatedKindViolations.Perm other.repeatedKindViolations := by
  have order := permuted.perm_ownActionKinds
  simp only [repeatedKindViolations_eq, order.count_eq]
  exact (perm_firstOccurrences order).flatMap_right _

theorem perm_breaches (permuted : strategy.Permuted other) :
    (strategy.violations.map Violation.breach).Perm (other.violations.map Violation.breach) := by
  rw [violations_eq, violations_eq, permuted.initialPortfolio, permuted.length_triggers]
  simp only [List.map_append]
  exact (((((List.Perm.refl _).append (permuted.perm_breachesIn .topLevel)).append
    (permuted.perm_breachesIn .composition)).append (permuted.perm_breachesIn .ownActions)).append
    (permuted.perm_repeatedKindViolations.map _)).append (permuted.perm_breachesIn .leaves)

/-- Permuted strategies are reported for the same, each code with its message as often as in the other
report, and the engine takes both or neither. -/
theorem perm_report (permuted : strategy.Permuted other) :
    (strategy.diagnostics.map fun entry => (entry.code, entry.message)).Perm
        (other.diagnostics.map fun entry => (entry.code, entry.message)) ∧
      strategy.isSupported = other.isSupported := by
  have entries (some : Strategy) :
      some.diagnostics.map (fun entry => (entry.code, entry.message)) =
        (some.violations.map Violation.breach).map fun breach => (breach.code, breach.message) := by
    rw [diagnostics, List.map_map, List.map_map]
    rfl
  constructor
  · rw [entries, entries]
    exact permuted.perm_breaches.map _
  · have empty := permuted.perm_breaches.isEmpty_eq
    rwa [List.isEmpty_map, List.isEmpty_map] at empty

/-- Two strategies that no rule on composition or repetition accepts. All that may be permuted is: the
triggers, the children of the aggregate, and the actions of the periodic trigger and of a child. -/
theorem perm_report_of_rejected :
    let trade := Action.addTrade ⟨[], none⟩
    let dates (actions : List Action) := Trigger.date ⟨[], actions⟩
    let periodic (actions : List Action) := Trigger.periodic ⟨"1m", actions⟩
    let risk := Trigger.risk ⟨⟨.eqVega, .zero, .above⟩, [trade]⟩
    let strategy : Strategy := ⟨[], [.aggregate [dates [.exit, trade], risk] [.exit],
      periodic [trade, .exit]]⟩
    let other : Strategy := ⟨[], [periodic [.exit, trade],
      .aggregate [risk, dates [trade, .exit]] [.exit]]⟩
    strategy.Permuted other ∧
      (strategy.diagnostics.map fun entry => (entry.code, entry.message)).Perm
        (other.diagnostics.map fun entry => (entry.code, entry.message)) ∧
      strategy.isSupported = other.isSupported := by
  intro trade dates periodic risk strategy other
  have permuted : strategy.Permuted other := by
    refine ⟨rfl, [.aggregate [risk, dates [trade, .exit]] [.exit], periodic [.exit, trade]], ?_,
      .swap _ _ _⟩
    refine .cons ?_ (.cons ?_ .nil)
    · exact .children (.cons (.actions (.swap _ _ _)) (.cons (.actions (.refl _)) .nil))
        (.swap _ _ _) (.refl _)
    · exact .actions (.swap _ _ _)
  exact ⟨permuted, perm_report permuted⟩

end Strategy.Permuted

end VolBacktest
