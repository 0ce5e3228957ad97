import Mathlib.Data.List.Forall2
import VolBacktest.Lowering
import VolBacktest.Proofs.Rules.Accepted

/-!
# Leaves and triggers of an accepted strategy

A strategy may have triggers without leaves and triggers with several, leaves of any kind, and leaves with no
action or with many. The rules leave one leaf for each trigger: a periodic trigger itself, or the one date
child of an aggregate. The leaf has one action, so the lowering that looks at first actions only has looked
at all of them, and each aggregate has given a signal.
-/

namespace VolBacktest

/-- What becomes of a trigger of an accepted strategy among the leaves: it is one itself, or its one date
child is. -/
inductive Trigger.RepresentedBy (index : Nat) : Trigger → Leaf → Prop where
  | itself {periodic : Guarded String} {leaf : Leaf} (same : leaf.trigger = .periodic periodic)
      (path : leaf.location.path = "triggers[" ++ toString index ++ "]") :
      RepresentedBy index (.periodic periodic) leaf
  | dateChild {children : List Trigger} {own : List Action} {position : Nat}
      {dates : Guarded (List Date)} {leaf : Leaf} (same : leaf.trigger = .date dates)
      (placed : children[position]? = some (.date dates))
      (unique : ∀ (other : Nat) (child : Trigger), children[other]? = some child →
        child.kind = .date → other = position)
      (path : leaf.location.path =
        "triggers[" ++ toString index ++ "].triggers[" ++ toString position ++ "]") :
      RepresentedBy index (.aggregate children own) leaf

/-- Every leaf with every action of it. -/
def Strategy.leafActions (strategy : Strategy) : List (Leaf × Action) :=
  strategy.leaves.flatMap fun leaf => leaf.trigger.actions.map fun action => (leaf, action)

/-! ### Triggers -/

theorem Location.path_trigger (index : Nat) :
    (trigger index).path = "triggers[" ++ toString index ++ "]" := by
  simp only [path, subscript, ← String.append_assoc]
  rfl

theorem Location.path_child (index position : Nat) :
    (child index position).path =
      "triggers[" ++ toString index ++ "].triggers[" ++ toString position ++ "]" := by
  have opening : "triggers[" = "triggers" ++ "[" := rfl
  have between : "].triggers[" = "]" ++ ".triggers" ++ "[" := rfl
  rw [opening, between]
  simp only [path, subscript, String.append_assoc]

namespace Trigger

/-- A trigger of the right kind and composition has one leaf, which represents it. -/
theorem exists_leaf {trigger : Trigger} (top : trigger.kind.isTopLevel)
    (composed : trigger.IsComposed) (index : Nat) :
    ∃ leaf, trigger.leaves index = [leaf] ∧ trigger.RepresentedBy index leaf := by
  cases trigger with
  | periodic periodic => exact ⟨_, rfl, .itself rfl (Location.path_trigger index)⟩
  | aggregate children own =>
      obtain ⟨dates, gate, -, rfl | rfl⟩ := composed
      · refine ⟨_, rfl, .dateChild rfl ?placed ?_ (Location.path_child index 0)⟩
        case placed => rfl
        rintro (_ | _ | _) child placed ofDates
        · rfl
        · cases placed
          cases ofDates
        · cases placed
      · refine ⟨_, rfl, .dateChild rfl ?placed ?_ (Location.path_child index 1)⟩
        case placed => rfl
        rintro (_ | _ | _) child placed ofDates
        · cases placed
          cases ofDates
        · rfl
        · cases placed
  | date | portfolio | market | risk => cases top

/-- A composed aggregate fills both roles, so that it has a signal. -/
theorem exists_signal {children : List Trigger} {own : List Action}
    (composed : (aggregate children own).IsComposed) :
    ∃ signal, Signal.ofChildren children = some signal := by
  obtain ⟨dates, gate, -, rfl | rfl⟩ := composed
  · exact ⟨_, rfl⟩
  · exact ⟨_, rfl⟩

end Trigger

/-! ### Walks -/

/-- Elements that give one result each, and the results. -/
theorem forall₂_flatMap_of_single {α β : Type} {view : α → List β} {items : List α}
    (single : ∀ a ∈ items, ∃ b, view a = [b]) :
    List.Forall₂ (fun a b => view a = [b]) items (items.flatMap view) := by
  induction items with
  | nil => exact .nil
  | cons a rest ih =>
      obtain ⟨b, only⟩ := single a List.mem_cons_self
      rw [List.flatMap_cons, only]
      exact .cons only (ih fun other member => single other (List.mem_cons_of_mem a member))

namespace Config

theorem lowerLeaf_of_single {leaf : Leaf} {action : Action} (only : leaf.trigger.actions = [action])
    (config : Config) : config.lowerLeaf leaf = config.lowerAction leaf action := by
  rw [lowerLeaf, only]

/-- Leaves with one action each are lowered action by action. -/
theorem foldlM_lowerLeaf {leaves : List Leaf}
    (single : ∀ leaf ∈ leaves, ∃ action, leaf.trigger.actions = [action]) (config : Config) :
    leaves.foldlM lowerLeaf config =
      (leaves.flatMap fun leaf => leaf.trigger.actions.map fun action => (leaf, action)).foldlM
        (fun config item => config.lowerAction item.1 item.2) config := by
  induction leaves generalizing config with
  | nil => rfl
  | cons leaf rest ih =>
      obtain ⟨action, only⟩ := single leaf List.mem_cons_self
      have tail := ih fun other member => single other (List.mem_cons_of_mem leaf member)
      rw [List.flatMap_cons, only, List.map_singleton, List.singleton_append, List.foldlM_cons,
        List.foldlM_cons, lowerLeaf_of_single only]
      exact congrArg _ (funext tail)

end Config

namespace Strategy

variable {strategy : Strategy}

namespace Accepted

/-- Trigger by trigger, the leaves of an accepted strategy. -/
theorem forall₂_leaves (accepted : strategy.Accepted) :
    List.Forall₂ (fun item leaf => item.1.leaves item.2 = [leaf]) strategy.triggers.zipIdx
      strategy.leaves := by
  apply forall₂_flatMap_of_single
  rintro ⟨trigger, index⟩ member
  have among := List.mem_of_getElem? (List.mk_mem_zipIdx_iff_getElem?.mp member)
  obtain ⟨leaf, only, -⟩ := Trigger.exists_leaf (accepted.topLevel _ among)
    (accepted.composed _ among) index
  exact ⟨leaf, only⟩

theorem length_leaves (accepted : strategy.Accepted) :
    strategy.leaves.length = strategy.triggers.length := by
  rw [← accepted.forall₂_leaves.length_eq, List.length_zipIdx]

theorem exists_leaf_at (accepted : strategy.Accepted) {index : Nat} {trigger : Trigger}
    (found : strategy.triggers[index]? = some trigger) :
    ∃ leaf, strategy.leaves[index]? = some leaf ∧ trigger.RepresentedBy index leaf := by
  obtain ⟨bound, atIndex⟩ := List.getElem?_eq_some_iff.mp found
  have inLeaves : index < strategy.leaves.length := by rwa [accepted.length_leaves]
  have only := (List.forall₂_iff_get.mp accepted.forall₂_leaves).2 index
    (by rwa [List.length_zipIdx]) inLeaves
  simp only [List.get_eq_getElem, List.getElem_zipIdx, Nat.zero_add, atIndex] at only
  have among := List.mem_of_getElem? found
  obtain ⟨leaf, also, represents⟩ := Trigger.exists_leaf (accepted.topLevel _ among)
    (accepted.composed _ among) index
  rw [also, List.cons.injEq] at only
  exact ⟨leaf, by rw [List.getElem?_eq_getElem inLeaves, only.1], represents⟩

theorem exists_action (accepted : strategy.Accepted) {leaf : Leaf}
    (member : leaf ∈ strategy.leaves) : ∃ action, leaf.trigger.actions = [action] := by
  obtain ⟨action, only, -⟩ := accepted.single leaf member
  exact ⟨action, only⟩

/-- Nothing that an accepted strategy says about actions of leaves is lost. -/
theorem lowerJournaled_eq (accepted : strategy.Accepted) :
    strategy.lowerJournaled = (do
      let config ← strategy.triggers.zipIdx.foldlM
        (fun config item => config.lowerSignal item.1 item.2) Config.default
      strategy.leafActions.foldlM (fun config item => config.lowerAction item.1 item.2) config) := by
  rw [lowerJournaled]
  congr 1
  funext config
  exact Config.foldlM_lowerLeaf (fun _ => accepted.exists_action) config

end Accepted

/-- The leaves of a strategy without violations are one for each trigger, in their order, and have one action
each. Lowering takes over all actions of all leaves, and a signal of each aggregate. -/
theorem leaves_of_no_violation (silent : strategy.diagnostics = []) :
    strategy.leaves.length = strategy.triggers.length ∧
      (∀ (index : Nat) (trigger : Trigger), strategy.triggers[index]? = some trigger →
        ∃ leaf, strategy.leaves[index]? = some leaf ∧ trigger.RepresentedBy index leaf) ∧
      (∀ leaf ∈ strategy.leaves, ∃ action, leaf.trigger.actions = [action] ∧
        ∀ config : Config, config.lowerLeaf leaf = config.lowerAction leaf action) ∧
      strategy.lowerJournaled = (do
        let config ← strategy.triggers.zipIdx.foldlM
          (fun config item => config.lowerSignal item.1 item.2) Config.default
        strategy.leafActions.foldlM (fun config item => config.lowerAction item.1 item.2) config) ∧
      ∀ (index : Nat) (children : List Trigger) (own : List Action),
        strategy.triggers[index]? = some (.aggregate children own) →
          ∃ signal, Signal.ofChildren children = some signal ∧
            ∀ config : Config, config.lowerSignal (.aggregate children own) index = (do
              .record (.signal (.trigger index) signal.items.length signal.side)
              pure (config.withSignal signal)) := by
  have accepted := accepted_iff.mpr silent
  refine ⟨accepted.length_leaves, ?represented, ?single, accepted.lowerJournaled_eq, ?signals⟩
  case represented =>
    intro index trigger found
    exact accepted.exists_leaf_at found
  case single =>
    intro leaf member
    obtain ⟨action, only⟩ := accepted.exists_action member
    exact ⟨action, only, Config.lowerLeaf_of_single only⟩
  case signals =>
    intro index children own found
    have composed := accepted.composed _ (List.mem_of_getElem? found)
    obtain ⟨signal, given⟩ := Trigger.exists_signal composed
    refine ⟨signal, given, fun config => ?_⟩
    simp only [Config.lowerSignal, given]

theorem leaves_of_hedged_and_gated :
    let hedged := Trigger.periodic ⟨businessDay, [.hedge ⟨.eqDelta, some businessDay⟩]⟩
    let gated := Trigger.gated [.july] .above .exit
    let strategy : Strategy := ⟨[], [hedged, gated]⟩
    strategy.diagnostics = [] ∧ strategy.leaves.length = 2 ∧
      (∃ leaf, strategy.leaves[0]? = some leaf ∧ hedged.RepresentedBy 0 leaf) ∧
      ∃ leaf, strategy.leaves[1]? = some leaf ∧ gated.RepresentedBy 1 leaf := by
  intro hedged gated strategy
  have silent : strategy.diagnostics = [] := rfl
  obtain ⟨length, represented, -⟩ := leaves_of_no_violation silent
  exact ⟨silent, length, represented 0 hedged rfl, represented 1 gated rfl⟩

end Strategy

end VolBacktest
