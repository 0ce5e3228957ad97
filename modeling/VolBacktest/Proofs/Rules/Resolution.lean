import VolBacktest.Proofs.Lowering.LeafWalk
import VolBacktest.Proofs.Rules.Faults
import VolBacktest.Proofs.Rules.Paths

/-!
# Where a path leads

A path can be followed: its indices are read as decimal numbers, and they lead from the list of triggers to a
trigger or to a child of one. `Strategy.resolve` does that on the text of the path alone. The path of a leaf
leads to the leaf. Leaves are listed in the order of their indices, those of an aggregate under the positions
that the children have among all children, and so no two leaves have the same path.
-/

namespace VolBacktest

namespace Location

/-- The indices of the location, from the outside in. -/
def indices : Location → List Nat
  | initialPortfolio | triggers => []
  | trigger i => [i]
  | child i j => [i, j]
  | action i k => [i, k]

/-- Reads a decimal number in brackets, with what follows the brackets. -/
def readSubscript : List Char → Option (Nat × List Char)
  | '[' :: rest =>
    match rest.takeWhile Char.isDigit, rest.dropWhile Char.isDigit with
    | digit :: more, ']' :: behind => some (Nat.ofDigitChars 10 (digit :: more) 0, behind)
    | _, _ => none
  | _ => none

/-- Reads a name and an index in brackets, with what follows them. -/
def readStep (name : String) (text : List Char) : Option (Nat × List Char) :=
  (text.dropPrefix? name.toList).bind readSubscript

theorem readSubscript_subscript (index : Nat) (behind : List Char) :
    readSubscript ((subscript index).toList ++ behind) = some (index, behind) := by
  have closes : Text.EndsDigits (']' :: behind) := Text.endsDigits_cons behind rfl
  have digits := Text.digits_toDigits index
  have chars : (subscript index).toList ++ behind =
      '[' :: (Nat.toDigits 10 index ++ ']' :: behind) := by
    simp [subscript]
  obtain ⟨digit, more, split⟩ := List.exists_cons_of_ne_nil (Nat.toDigits_ne_nil (n := index) (b := 10))
  have value : Nat.ofDigitChars 10 (digit :: more) 0 = index := by
    rw [← split]
    simp
  rw [chars, readSubscript, digits.takeWhile_append closes, digits.dropWhile_append closes, split]
  simp only [value]

theorem readStep_subscript (name : String) (index : Nat) (behind : String) :
    readStep name (name ++ (subscript index ++ behind)).toList = some (index, behind.toList) := by
  rw [readStep, String.toList_append, String.toList_append,
    List.dropPrefix?_append_of_beq _ (beq_self_eq_true _)]
  exact readSubscript_subscript index behind.toList

theorem path_action (index position : Nat) :
    (action index position).path =
      "triggers[" ++ toString index ++ "].actions[" ++ toString position ++ "]" := by
  have opening : "triggers[" = "triggers" ++ "[" := rfl
  have between : "].actions[" = "]" ++ ".actions" ++ "[" := rfl
  rw [opening, between]
  simp only [path, subscript, String.append_assoc]

end Location

/-! ### Resolving a path -/

namespace Strategy

/-- The trigger that a path leads to, if the path is one of a trigger or of a child of an aggregate. -/
def resolve (strategy : Strategy) (path : String) : Option Trigger := do
  let (index, rest) ← Location.readStep "triggers" path.toList
  let trigger ← strategy.triggers[index]?
  if rest.isEmpty then
    return trigger
  let (position, rest) ← Location.readStep ".triggers" rest
  if rest.isEmpty then
    trigger.children[position]?
  else
    none

variable (strategy : Strategy)

theorem resolve_trigger (index : Nat) :
    strategy.resolve (Location.trigger index).path = strategy.triggers[index]? := by
  have read := Location.readStep_subscript "triggers" index ""
  rw [String.append_empty] at read
  rw [resolve, Location.path, read]
  simp

theorem resolve_child (index position : Nat) :
    strategy.resolve (Location.child index position).path =
      strategy.triggers[index]?.bind fun trigger => trigger.children[position]? := by
  let behind := ".triggers" ++ Location.subscript position
  have read := Location.readStep_subscript "triggers" index behind
  have readBehind := Location.readStep_subscript ".triggers" position ""
  rw [String.append_empty] at readBehind
  have path : (Location.child index position).path =
      "triggers" ++ (Location.subscript index ++ behind) := by
    simp only [Location.path, behind, String.append_assoc]
  have goesOn : behind.toList.isEmpty = false := by
    simp [behind]
  rw [resolve, path, read]
  simp only [Option.bind_eq_bind, Option.bind_some, goesOn, Bool.false_eq_true, if_false]
  simp only [behind, readBehind, Option.bind_some]
  rfl

/-- The path of a leaf leads to it. -/
theorem resolve_of_mem_leaves {leaf : Leaf} (member : leaf ∈ strategy.leaves) :
    strategy.resolve leaf.location.path = some leaf.trigger := by
  obtain ⟨trigger, location⟩ := leaf
  cases mem_leaves_iff_leafAt.mp member with
  | trigger found _ => rw [resolve_trigger, found]
  | child found placed _ =>
      rw [resolve_child, found, Option.bind_some, Trigger.children]
      exact placed

end Strategy

/-! ### The order of the leaves -/

/-- An earlier item of a list has a smaller index. -/
theorem pairwise_zipIdx {α : Type} (items : List α) :
    items.zipIdx.Pairwise fun first second => first.2 < second.2 := by
  rw [← List.pairwise_map (f := Prod.snd) (R := (· < ·)), List.zipIdx_map_snd]
  exact List.pairwise_lt_range'

namespace Trigger

theorem exists_indices_of_mem_leaves {trigger : Trigger} {index : Nat} {leaf : Leaf}
    (member : leaf ∈ trigger.leaves index) : ∃ rest, leaf.location.indices = index :: rest := by
  by_cases single : trigger.kind = .aggregate
  · cases trigger with
    | aggregate children own =>
        obtain ⟨position, _, _, _, rfl⟩ := mem_leaves_aggregate_iff.mp member
        exact ⟨[position], rfl⟩
    | _ => contradiction
  · rw [leaves_of_single single, List.mem_singleton] at member
    subst member
    exact ⟨[], rfl⟩

/-- The leaves of an aggregate keep the positions of the children, and with them their order. -/
theorem pairwise_leaves (trigger : Trigger) (index : Nat) :
    (trigger.leaves index).Pairwise fun first second =>
      first.location.indices < second.location.indices := by
  by_cases single : trigger.kind = .aggregate
  · cases trigger with
    | aggregate children own =>
        refine List.pairwise_map.mpr (((pairwise_zipIdx children).filter _).imp ?_)
        intro first second earlier
        exact List.cons_lt_cons_iff.mpr (.inr ⟨rfl, List.cons_lt_cons_iff.mpr (.inl earlier)⟩)
    | _ => contradiction
  · rw [leaves_of_single single]
    exact List.pairwise_singleton _ _

end Trigger

namespace Strategy

variable (strategy : Strategy)

theorem pairwise_leaves :
    strategy.leaves.Pairwise fun first second =>
      first.location.indices < second.location.indices := by
  rw [leaves, List.pairwise_flatMap]
  refine ⟨fun item _ => item.1.pairwise_leaves item.2, (pairwise_zipIdx strategy.triggers).imp ?_⟩
  intro first second earlier leaf ofFirst other ofSecond
  obtain ⟨rest, indices⟩ := Trigger.exists_indices_of_mem_leaves ofFirst
  obtain ⟨restToo, indicesToo⟩ := Trigger.exists_indices_of_mem_leaves ofSecond
  rw [indices, indicesToo]
  exact List.cons_lt_cons_iff.mpr (.inl earlier)

/-- Leaves are apart in their paths, and each path leads to the leaf it belongs to. They are in the order of
their indices, the outer index first, and they are the triggers other than aggregates and the children of
aggregates other than conditions on the portfolio. No path can be read as that of another location. -/
theorem paths_identify_leaves :
    (strategy.leaves.map fun leaf => leaf.location.path).Nodup ∧
      (∀ leaf ∈ strategy.leaves, strategy.resolve leaf.location.path = some leaf.trigger) ∧
      (strategy.leaves.map fun leaf => leaf.location.indices).Pairwise (· < ·) ∧
      (∀ leaf, leaf ∈ strategy.leaves ↔ strategy.LeafAt leaf.location leaf.trigger) ∧
      (∀ i, (Location.trigger i).path = "triggers[" ++ toString i ++ "]") ∧
      (∀ i j, (Location.child i j).path =
        "triggers[" ++ toString i ++ "].triggers[" ++ toString j ++ "]") ∧
      (∀ i k, (Location.action i k).path =
        "triggers[" ++ toString i ++ "].actions[" ++ toString k ++ "]") ∧
      ∀ location other : Location, location.path = other.path → location = other := by
  have ordered := strategy.pairwise_leaves
  refine ⟨?apart, fun leaf => strategy.resolve_of_mem_leaves, List.pairwise_map.mpr ordered,
    fun leaf => mem_leaves_iff_leafAt, Location.path_trigger, Location.path_child,
    Location.path_action, fun location other same => Location.path_injective same⟩
  case apart =>
    refine List.pairwise_map.mpr (ordered.imp ?_)
    intro first second before same
    rw [Location.path_injective same] at before
    exact List.lt_irrefl _ before

end Strategy

/-- A leaf keeps its position where the child before it is dropped. -/
example (gate : Guarded LevelRequirement) (dates : Guarded (List Date)) (own : List Action) :
    ((Trigger.aggregate [.portfolio gate, .date dates] own).leaves 2).map
      (fun leaf => leaf.location.path) = ["triggers[2].triggers[1]"] := rfl

end VolBacktest
