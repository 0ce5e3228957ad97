import Mathlib.Data.List.Perm.Basic

/-!
# Shuffled lists

A list is shuffled into another one if its elements are replaced by related ones, others are added, and
all of them are put in any order. What holds of all elements of a list does not depend on how they stand,
nor does what is selected from it.
-/

namespace VolBacktest

variable {α β : Type} {R : α → β → Prop} {fresh : β → Prop} {items : List α} {others : List β}

/-- The second list consists of elements related to those of the first and of fresh ones. -/
def Shuffled (R : α → β → Prop) (fresh : β → Prop) (items : List α) (others : List β) : Prop :=
  ∃ kept added, List.Forall₂ R items kept ∧ (∀ b ∈ added, fresh b) ∧ others.Perm (kept ++ added)

/-- Elements that are related in the same places. -/
theorem forall₂_of_getElem? (length : items.length = others.length)
    (each : ∀ (i : Nat) (a : α) (b : β), items[i]? = some a → others[i]? = some b → R a b) :
    List.Forall₂ R items others := by
  refine List.forall₂_iff_get.mpr ⟨length, fun i here there => ?_⟩
  exact each i _ _ (List.getElem?_eq_getElem here) (List.getElem?_eq_getElem there)

theorem forall_mem_iff_of_forall₂ {p : α → Prop} {q : β → Prop}
    (related : List.Forall₂ (fun a b => p a ↔ q b) items others) :
    (∀ a ∈ items, p a) ↔ ∀ b ∈ others, q b := by
  induction related with
  | nil => exact iff_of_true nofun nofun
  | cons head _ ih => rw [List.forall_mem_cons, List.forall_mem_cons, head, ih]

/-- Lists of elements with the same images have the same lists of images. -/
theorem forall₂_congr_left {γ : Type} {T : α → γ → Prop} {U : β → γ → Prop} {images : List γ}
    (related : List.Forall₂ (fun a b => ∀ c, T a c ↔ U b c) items others) :
    List.Forall₂ T items images ↔ List.Forall₂ U others images := by
  induction related generalizing images with
  | nil => simp
  | cons head _ ih => simp only [List.forall₂_cons_left_iff, head, ih]

namespace Shuffled

theorem forall_iff {p : α → Prop} {q : β → Prop} (shuffled : Shuffled R fresh items others)
    (each : ∀ a b, R a b → (p a ↔ q b)) (new : ∀ b, fresh b → q b) :
    (∀ a ∈ items, p a) ↔ ∀ b ∈ others, q b := by
  obtain ⟨kept, added, related, isNew, order⟩ := shuffled
  rw [forall_mem_iff_of_forall₂ (related.imp each)]
  constructor
  · intro all b member
    obtain old | young := List.mem_append.mp (order.mem_iff.mp member)
    · exact all b old
    · exact new b (isNew b young)
  · intro all b member
    exact all b (order.mem_iff.mpr (List.mem_append_left added member))

theorem filter (shuffled : Shuffled R fresh items others) {p : α → Bool} {q : β → Bool}
    (each : ∀ a b, R a b → (p a ↔ q b)) :
    Shuffled R fresh (items.filter p) (others.filter q) := by
  obtain ⟨kept, added, related, isNew, order⟩ := shuffled
  refine ⟨kept.filter q, added.filter q, List.rel_filter (fun a b => each a b) related, ?_, ?_⟩
  · intro b member
    exact isNew b (List.mem_of_mem_filter member)
  · rw [← List.filter_append]
    exact order.filter q

/-- Without fresh elements the lists have equally many elements. -/
theorem perm_of_not_fresh (shuffled : Shuffled R fresh items others)
    (none : ∀ b ∈ others, ¬fresh b) : ∃ kept, List.Forall₂ R items kept ∧ others.Perm kept := by
  obtain ⟨kept, added, related, isNew, order⟩ := shuffled
  obtain rfl : added = [] := by
    rw [List.eq_nil_iff_forall_not_mem]
    intro b member
    exact none b (order.mem_iff.mpr (List.mem_append_right kept member)) (isNew b member)
  rw [List.append_nil] at order
  exact ⟨kept, related, order⟩

end Shuffled

end VolBacktest
