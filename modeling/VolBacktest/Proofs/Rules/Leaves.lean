import VolBacktest.Proofs.Rules.Accepted

/-!
# Leaves of an accepted strategy

A leaf of an accepted strategy is a periodic trigger or the date child of an aggregate. Only the
actions of the periodic leaves are own actions of a trigger of the strategy, so only these leaves
are kept apart by the rule that no kind of action occurs twice.
-/

namespace VolBacktest

/-- An aggregate contributes every child that is more than a condition on the portfolio. -/
theorem Trigger.mem_leaves_aggregate_iff {children : List Trigger} {actions : List Action}
    {index : Nat} {leaf : Leaf} :
    leaf ∈ (aggregate children actions).leaves index ↔
      ∃ (position : Nat) (child : Trigger), children[position]? = some child ∧
        child.kind ≠ .portfolio ∧ leaf = ⟨child, .child index position⟩ := by
  simp only [leaves, List.mem_map, List.mem_filter, Prod.exists, List.mk_mem_zipIdx_iff_getElem?,
    decide_eq_true_eq]
  constructor
  · rintro ⟨child, position, ⟨found, leafy⟩, rfl⟩
    exact ⟨position, child, found, leafy, rfl⟩
  · rintro ⟨position, child, found, leafy, rfl⟩
    exact ⟨child, position, ⟨found, leafy⟩, rfl⟩

namespace Strategy

variable {strategy : Strategy}

theorem mem_leaves_iff {leaf : Leaf} :
    leaf ∈ strategy.leaves ↔
      ∃ (index : Nat) (trigger : Trigger),
        strategy.triggers[index]? = some trigger ∧ leaf ∈ trigger.leaves index := by
  simp only [leaves, List.mem_flatMap, Prod.exists, List.mk_mem_zipIdx_iff_getElem?]
  exact exists_comm

namespace Accepted

/-- The two kinds of leaves, with the triggers that they come from. -/
theorem leaf_cases (accepted : strategy.Accepted) {leaf : Leaf} (member : leaf ∈ strategy.leaves) :
    (∃ (index : Nat) (periodic : Guarded String),
        strategy.triggers[index]? = some (.periodic periodic) ∧
          leaf = ⟨.periodic periodic, .trigger index⟩) ∨
      ∃ (index position : Nat) (children : List Trigger) (actions : List Action)
        (date : Guarded (List Date)),
        strategy.triggers[index]? = some (.aggregate children actions) ∧
          children[position]? = some (.date date) ∧
            leaf = ⟨.date date, .child index position⟩ := by
  obtain ⟨index, trigger, found, contributed⟩ := mem_leaves_iff.mp member
  have owned := List.mem_of_getElem? found
  have top := accepted.topLevel trigger owned
  cases trigger with
  | periodic periodic =>
      refine .inl ⟨index, periodic, found, ?_⟩
      exact List.mem_singleton.mp contributed
  | aggregate children actions =>
      obtain ⟨position, child, placed, leafy, rfl⟩ :=
        Trigger.mem_leaves_aggregate_iff.mp contributed
      obtain ⟨date, gate, -, shape⟩ := accepted.composed _ owned
      refine .inr ⟨index, position, children, actions, date, found, ?_⟩
      -- The portfolio child is no leaf, so the child in question is the other one.
      have isDate : child = .date date := by
        have among := List.mem_of_getElem? placed
        obtain rfl | rfl := shape <;> grind [Trigger.kind]
      rw [← isDate]
      exact ⟨placed, rfl⟩
  | date _ => contradiction
  | portfolio _ => contradiction
  | market _ => contradiction
  | risk _ => contradiction

/-- Two triggers with own actions of one kind are the same. -/
theorem index_eq_of_kind (accepted : strategy.Accepted) {i j : Nat} {first second : Trigger}
    (atFirst : strategy.triggers[i]? = some first) (atSecond : strategy.triggers[j]? = some second)
    {kind : ActionKind} (ofFirst : kind ∈ first.actions.map Action.kind)
    (ofSecond : kind ∈ second.actions.map Action.kind) : i = j := by
  have apart := (List.pairwise_iff_getElem.mp (List.nodup_flatMap.mp accepted.kindsOnce).2)
  obtain ⟨iBound, rfl⟩ := List.getElem?_eq_some_iff.mp atFirst
  obtain ⟨jBound, rfl⟩ := List.getElem?_eq_some_iff.mp atSecond
  rcases Nat.lt_trichotomy i j with before | same | after
  · exact absurd ofSecond (apart i j iBound jBound before ofFirst)
  · exact same
  · exact absurd ofFirst (apart j i jBound iBound after ofSecond)

/-- Two periodic leaves with actions of one kind are the same. -/
theorem periodic_leaf_unique (accepted : strategy.Accepted) {first second : Leaf}
    (atFirst : first ∈ strategy.leaves) (atSecond : second ∈ strategy.leaves)
    (firstPeriodic : first.trigger.kind = .periodic)
    (secondPeriodic : second.trigger.kind = .periodic) {kind : ActionKind}
    (ofFirst : kind ∈ first.trigger.actions.map Action.kind)
    (ofSecond : kind ∈ second.trigger.actions.map Action.kind) : first = second := by
  obtain ⟨i, a, foundFirst, rfl⟩ | ⟨_, _, _, _, _, _, _, rfl⟩ := accepted.leaf_cases atFirst
  · obtain ⟨j, b, foundSecond, rfl⟩ | ⟨_, _, _, _, _, _, _, rfl⟩ := accepted.leaf_cases atSecond
    · obtain rfl := accepted.index_eq_of_kind foundFirst foundSecond ofFirst ofSecond
      rw [foundFirst, Option.some.injEq] at foundSecond
      rw [foundSecond]
    · contradiction
  · contradiction

end Accepted

end Strategy

end VolBacktest
