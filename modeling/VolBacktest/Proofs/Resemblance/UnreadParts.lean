import VolBacktest.Proofs.Resemblance.Strategies
import VolBacktest.Proofs.Rules.Codes

/-!
# Parts that are not read

Nothing reads the actions of a portfolio child, nor what an aggregate inside an aggregate is
composed of: as a leaf, such an aggregate only counts with its own actions. The own actions of an
aggregate of the strategy are read by rules for the shape alone, so whatever they are, lowering and
the rules for leaves do the same.
-/

namespace VolBacktest

namespace Trigger

/-- The same child of an aggregate, up to what nothing reads of it. A change further inside a
nested aggregate is a change of its children. -/
inductive SameInside : Trigger → Trigger → Prop where
  | same (child : Trigger) : SameInside child child
  | gate (requirement : LevelRequirement) (actions others : List Action) :
      SameInside (.portfolio ⟨requirement, actions⟩) (.portfolio ⟨requirement, others⟩)
  | nested (children others : List Trigger) (actions : List Action) :
      SameInside (.aggregate children actions) (.aggregate others actions)

/-- The same trigger, up to what nothing reads of the children of an aggregate. -/
inductive SameButUnread : Trigger → Trigger → Prop where
  | same (trigger : Trigger) : SameButUnread trigger trigger
  | inside {children others : List Trigger} (actions : List Action)
      (each : List.Forall₂ SameInside children others) :
      SameButUnread (.aggregate children actions) (.aggregate others actions)

/-- The same trigger, up to the own actions of an aggregate. -/
inductive SameButOwn : Trigger → Trigger → Prop where
  | same (trigger : Trigger) : SameButOwn trigger trigger
  | own (children : List Trigger) (actions others : List Action) :
      SameButOwn (.aggregate children actions) (.aggregate children others)

variable {trigger other : Trigger}

theorem SameInside.resemblesInside (same : trigger.SameInside other) :
    trigger.ResemblesInside id other := by
  cases same with
  | same => exact .refl trigger
  | gate requirement actions others => exact ⟨rfl, rfl, rfl, rfl, fun leafy => absurd rfl leafy⟩
  | nested children others actions =>
      exact ⟨rfl, rfl, rfl, rfl, fun _ => (Action.map_mapFields_id actions).symm⟩

theorem SameButUnread.resembles (same : trigger.SameButUnread other) :
    trigger.Resembles id other := by
  cases same with
  | same => exact .refl trigger
  | inside actions each =>
      exact .aggregate (each.imp fun _ _ child => child.resemblesInside) rfl

theorem SameButOwn.signal (same : trigger.SameButOwn other) : other.signal = trigger.signal := by
  cases same <;> rfl

theorem SameButOwn.leaves (same : trigger.SameButOwn other) (index : Nat) :
    other.leaves index = trigger.leaves index := by
  cases same <;> rfl

end Trigger

namespace Strategy

/-- The same strategy, up to the actions of portfolio children and the children of nested
aggregates. -/
structure SameButUnread (strategy other : Strategy) : Prop where
  initialPortfolio : other.initialPortfolio = strategy.initialPortfolio
  triggers : List.Forall₂ Trigger.SameButUnread strategy.triggers other.triggers

/-- The same strategy, up to the own actions of its aggregates. -/
structure SameButOwn (strategy other : Strategy) : Prop where
  initialPortfolio : other.initialPortfolio = strategy.initialPortfolio
  triggers : List.Forall₂ Trigger.SameButOwn strategy.triggers other.triggers

variable {strategy other : Strategy}

theorem SameButUnread.resembles (same : strategy.SameButUnread other) :
    strategy.Resembles id other :=
  ⟨congrArg List.length same.initialPortfolio, same.triggers.imp fun _ _ each => each.resembles⟩

theorem SameButOwn.leaves (same : strategy.SameButOwn other) : other.leaves = strategy.leaves :=
  flatMap_zipIdx_eq_of_forall₂ (fun trigger index => Trigger.leaves index trigger)
    (fun _ _ index each => each.leaves index) same.triggers 0

theorem SameButOwn.lower (same : strategy.SameButOwn other) : other.lower = strategy.lower := by
  have leaves : List.Forall₂ (Leaf.Resembles id) strategy.leaves other.leaves := by
    rw [same.leaves, List.forall₂_same]
    exact fun leaf _ => .refl leaf
  rw [lower_of_leaves (same.triggers.imp fun _ _ each => each.signal) leaves,
    Config.mapFields_id, Except.map_id, id]

theorem SameButOwn.leafViolations (same : strategy.SameButOwn other) :
    other.leafViolations = strategy.leafViolations := by
  rw [Strategy.leafViolations, same.leaves, Strategy.leafViolations]

/-- The unread parts have no influence at all, and the own actions of aggregates none but on the
rules for the shape. The numbers of a strategy are finite. -/
theorem unread_parts_irrelevant (strategy : Strategy) :
    (∀ other, strategy.SameButUnread other →
      other.diagnostics = strategy.diagnostics ∧ other.lower = strategy.lower ∧
        other.compile = strategy.compile) ∧
    ∀ other, strategy.SameButOwn other →
      other.lower = strategy.lower ∧
        other.diagnostics.filter (·.HasLeafCode) =
          strategy.diagnostics.filter (·.HasLeafCode) := by
  constructor
  · intro other same
    have alike := same.resembles
    have lowered := alike.lower
    have compiled := alike.compile
    rw [Config.mapFields_id, Except.map_id] at lowered compiled
    exact ⟨alike.diagnostics, lowered, compiled⟩
  · intro other same
    refine ⟨same.lower, ?_⟩
    rw [filter_hasLeafCode_diagnostics, same.leafViolations, filter_hasLeafCode_diagnostics]

/-- Dates to leave the market, with a gate that has these actions, next to an aggregate of these
triggers that hedges; the aggregate of all has these own actions. -/
def hedgeInside (gateActions : List Action) (nested : List Trigger) (own : List Action) :
    Strategy :=
  ⟨[], [.aggregate [.date ⟨[.january], [.exit]⟩,
    .portfolio ⟨⟨portfolioLength, .zero, .above⟩, gateActions⟩,
    .aggregate nested [.hedge ⟨.eqDelta, some businessDay⟩]] own]⟩

/-- The hedge that has no frequency is at fault, whatever stands in the unread parts. -/
theorem unread_parts_hedgeInside :
    (hedgeInside [] [] []).lower =
        .error (.unmappedHedgeFrequency none "triggers[0].triggers[2]") ∧
      (hedgeInside [.exit] [.date ⟨[.july], []⟩] []).diagnostics =
        (hedgeInside [] [] []).diagnostics ∧
      (hedgeInside [.exit] [.date ⟨[.july], []⟩] []).lower = (hedgeInside [] [] []).lower ∧
      (hedgeInside [] [] [.exit, .exit]).lower = (hedgeInside [] [] []).lower ∧
      (hedgeInside [] [] [.exit, .exit]).diagnostics.filter (·.HasLeafCode) =
        (hedgeInside [] [] []).diagnostics.filter (·.HasLeafCode) := by
  have refilled : (hedgeInside [] [] []).SameButUnread
      (hedgeInside [.exit] [.date ⟨[.july], []⟩] []) := by
    refine ⟨rfl, .cons (.inside [] ?_) .nil⟩
    exact .cons (.same _) (.cons (.gate _ _ _) (.cons (.nested _ _ _) .nil))
  have owned : (hedgeInside [] [] []).SameButOwn (hedgeInside [] [] [.exit, .exit]) :=
    ⟨rfl, .cons (.own _ _ _) .nil⟩
  obtain ⟨judged, lowered, -⟩ := (unread_parts_irrelevant _).1 _ refilled
  exact ⟨rfl, judged, lowered, (unread_parts_irrelevant _).2 _ owned⟩

end Strategy

end VolBacktest
