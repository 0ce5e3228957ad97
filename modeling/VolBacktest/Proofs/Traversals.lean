import Mathlib.Data.List.Forall2

/-!
# Traversals of related lists

Two lists whose elements are related one by one are traversed alike: what a traversal computes from
related elements is the same, or related again. The lemmas cover the traversals that rules and
lowering are made of. The last two are about lists that are only thinned out or rearranged.
-/

namespace VolBacktest

section Related

variable {α β γ δ σ τ : Type} {R : α → β → Prop} {items : List α} {others : List β}

theorem map_eq_of_forall₂ {view : α → γ} {other : β → γ}
    (one : ∀ a b, R a b → other b = view a) (related : List.Forall₂ R items others) :
    others.map other = items.map view := by
  induction related with
  | nil => rfl
  | cons head _ ih => rw [List.map_cons, List.map_cons, ih, one _ _ head]

theorem findSome?_eq_of_forall₂ {view : α → Option γ} {other : β → Option γ}
    (one : ∀ a b, R a b → other b = view a) (related : List.Forall₂ R items others) :
    others.findSome? other = items.findSome? view := by
  have same := congrArg (List.findSome? id) (map_eq_of_forall₂ one related)
  rw [List.findSome?_map, List.findSome?_map] at same
  exact same

/-- If each step follows the other through `image`, so does the whole fold. The induction is over
the two lists together, for every state. -/
theorem foldl_eq_of_forall₂ {image : σ → τ} {step : σ → α → σ} {other : τ → β → τ}
    (one : ∀ state a b, R a b → other (image state) b = image (step state a))
    (related : List.Forall₂ R items others) (state : σ) :
    others.foldl other (image state) = image (items.foldl step state) := by
  induction related generalizing state with
  | nil => rfl
  | cons head _ ih => rw [List.foldl_cons, List.foldl_cons, one _ _ _ head, ih]

/-- The same place is given to related elements. -/
theorem forall₂_flatMap_zipIdx {S : γ → δ → Prop} {view : α → Nat → List γ}
    {other : β → Nat → List δ}
    (one : ∀ a b index, R a b → List.Forall₂ S (view a index) (other b index))
    (related : List.Forall₂ R items others) (start : Nat) :
    List.Forall₂ S ((items.zipIdx start).flatMap fun item => view item.1 item.2)
      ((others.zipIdx start).flatMap fun item => other item.1 item.2) := by
  induction related generalizing start with
  | nil => exact .nil
  | cons head _ ih =>
      rw [List.zipIdx_cons, List.zipIdx_cons, List.flatMap_cons, List.flatMap_cons]
      exact List.rel_append (one _ _ start head) (ih (start + 1))

theorem flatMap_zipIdx_eq_of_forall₂ {R : α → α → Prop} {items others : List α}
    (view : α → Nat → List γ) (one : ∀ a b index, R a b → view b index = view a index)
    (related : List.Forall₂ R items others) (start : Nat) :
    ((others.zipIdx start).flatMap fun item => view item.1 item.2) =
      (items.zipIdx start).flatMap fun item => view item.1 item.2 := by
  induction related generalizing start with
  | nil => rfl
  | cons head _ ih =>
      rw [List.zipIdx_cons, List.zipIdx_cons, List.flatMap_cons, List.flatMap_cons,
        one _ _ start head, ih (start + 1)]

end Related

/-- A traversal that takes something from some elements has taken one thing from each of them. -/
theorem forall₂_filter_filterMap {α β : Type} {p : α → Prop} [DecidablePred p] {R : α → β → Prop}
    {take : α → Option β} {items : List α}
    (taken : ∀ a ∈ items, p a → ∃ b, take a = some b ∧ R a b)
    (left : ∀ a ∈ items, ¬p a → take a = none) :
    List.Forall₂ R (items.filter p) (items.filterMap take) := by
  induction items with
  | nil => exact .nil
  | cons a rest ih =>
      have later := ih (fun b member => taken b (List.mem_cons_of_mem a member))
        (fun b member => left b (List.mem_cons_of_mem a member))
      by_cases chosen : p a
      · obtain ⟨b, found, related⟩ := taken a List.mem_cons_self chosen
        rw [List.filter_cons_of_pos (by simpa using chosen), List.filterMap_cons_some found]
        exact .cons related later
      · rw [List.filter_cons_of_neg (by simpa using chosen),
          List.filterMap_cons_none (left a List.mem_cons_self chosen)]
        exact later

/-- Where no two elements write, the writes can only come in one order. -/
theorem filterMap_eq_of_perm {α β : Type} {write : α → Option β} {items : List α}
    {writes : List β}
    (once : ∀ first second, [first, second].Sublist items →
      ∀ a b, write first = some a → write second = some b → False)
    (order : (items.filterMap write).Perm writes) : writes = items.filterMap write := by
  have apart : (items.filterMap write).Pairwise fun _ _ => False := by
    rw [List.pairwise_filterMap, List.pairwise_iff_forall_sublist]
    intro first second among a writesFirst b writesSecond
    exact once first second among a b writesFirst writesSecond
  cases given : items.filterMap write with
  | nil =>
      rw [given] at order
      exact order.nil_eq.symm
  | cons a rest =>
      rw [given] at order apart
      cases rest with
      | nil => exact List.perm_singleton.mp order.symm
      | cons b rest => exact ((List.pairwise_cons.mp apart).1 b List.mem_cons_self).elim

end VolBacktest
