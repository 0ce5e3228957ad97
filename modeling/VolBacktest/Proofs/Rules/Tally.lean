import Mathlib.Data.List.Nodup
import VolBacktest.Rules.Shape

/-!
# What a tally tells

A tally of a list of keys has the keys of the list in the order in which they occur first, and in its map one
entry for each of them, with the number of its occurrences. This holds of the tally after each key, and it
holds whatever the order is in which the map keeps its entries, be it another one after each key. So the
report of repeated kinds of action can be read off the kinds themselves.
-/

namespace VolBacktest

/-! ### First occurrences -/

/-- The elements without repetition, each where it occurs first. -/
def firstOccurrences {α : Type} [DecidableEq α] : List α → List α
  | [] => []
  | a :: rest => a :: (firstOccurrences rest).filter (· ≠ a)

section

variable {α : Type} [DecidableEq α] {items : List α}

theorem mem_firstOccurrences {a : α} : a ∈ firstOccurrences items ↔ a ∈ items := by
  induction items with
  | nil => rfl
  | cons first rest ih => by_cases same : a = first <;> simp [firstOccurrences, ih, same]

theorem nodup_firstOccurrences (items : List α) : (firstOccurrences items).Nodup := by
  induction items with
  | nil => exact List.nodup_nil
  | cons first rest ih =>
      refine List.nodup_cons.mpr ⟨?_, ih.filter _⟩
      simp

/-- The elements are in the order of their first places in the list. -/
theorem pairwise_firstOccurrences (items : List α) :
    (firstOccurrences items).Pairwise fun a b => items.idxOf a < items.idxOf b := by
  induction items with
  | nil => exact .nil
  | cons first rest ih =>
      refine List.pairwise_cons.mpr ⟨?_, ?_⟩
      · intro a later
        have other : a ≠ first := by simpa using (List.mem_filter.mp later).2
        rw [List.idxOf_cons_self, List.idxOf_cons_ne _ other.symm]
        exact Nat.succ_pos _
      · refine (ih.filter _).imp_of_mem fun {a b} inA inB before => ?_
        have notA : a ≠ first := by simpa using (List.mem_filter.mp inA).2
        have notB : b ≠ first := by simpa using (List.mem_filter.mp inB).2
        rw [List.idxOf_cons_ne _ notA.symm, List.idxOf_cons_ne _ notB.symm]
        exact Nat.succ_lt_succ before

/-- An element that comes last is new or not. -/
theorem firstOccurrences_concat (items : List α) (a : α) :
    firstOccurrences (items ++ [a]) =
      if a ∈ items then firstOccurrences items else firstOccurrences items ++ [a] := by
  induction items with
  | nil => rfl
  | cons first rest ih =>
      rw [List.cons_append, firstOccurrences, firstOccurrences, ih]
      by_cases same : a = first
      · subst same
        by_cases known : a ∈ rest <;> simp [known]
      · by_cases known : a ∈ rest <;> simp [known, same]

end

namespace Tally

variable {κ : Type} [DecidableEq κ] {keys : List κ} {tally : Tally κ}

/-! ### Maps -/

section

variable {key : κ} {count : Nat} {entries : List (κ × Nat)}

/-- The map has one more key, if the key is new to it, and otherwise the same keys. -/
theorem map_fst_setCount :
    (setCount key count entries).map Prod.fst =
      if key ∈ entries.map Prod.fst then entries.map Prod.fst
      else entries.map Prod.fst ++ [key] := by
  induction entries with
  | nil => rfl
  | cons entry rest ih =>
      rw [setCount]
      by_cases same : entry.1 = key
      · simp [same]
      · rw [if_neg same, List.map_cons, ih]
        by_cases known : key ∈ rest.map Prod.fst <;> simp_all [eq_comm]

theorem nodup_setCount (once : (entries.map Prod.fst).Nodup) :
    ((setCount key count entries).map Prod.fst).Nodup := by
  rw [map_fst_setCount]
  split
  next => exact once
  next new =>
    exact (List.perm_append_singleton key _).nodup_iff.mpr (List.nodup_cons.mpr ⟨new, once⟩)

theorem mem_setCount_iff (once : (entries.map Prod.fst).Nodup) {entry : κ × Nat} :
    entry ∈ setCount key count entries ↔
      entry = (key, count) ∨ entry.1 ≠ key ∧ entry ∈ entries := by
  induction entries with
  | nil => simp [setCount]
  | cons head rest ih =>
      obtain ⟨new, onceInRest⟩ := List.nodup_cons.mp once
      rw [setCount]
      by_cases same : head.1 = key
      · rw [if_pos same, List.mem_cons, List.mem_cons]
        constructor
        · rintro (isNew | later)
          · exact .inl isNew
          · refine .inr ⟨?_, .inr later⟩
            rintro rfl
            exact new (same ▸ List.mem_map_of_mem later)
        · rintro (isNew | ⟨other, rfl | later⟩)
          · exact .inl isNew
          · exact absurd same other
          · exact .inr later
      · rw [if_neg same, List.mem_cons, List.mem_cons, ih onceInRest]
        constructor
        · rintro (rfl | isNew | ⟨other, later⟩)
          · exact .inr ⟨same, .inl rfl⟩
          · exact .inl isNew
          · exact .inr ⟨other, .inr later⟩
        · rintro (isNew | ⟨other, rfl | later⟩)
          · exact .inr (.inl isNew)
          · exact .inl rfl
          · exact .inr (.inr ⟨other, later⟩)

end

/-- In a map with each key once, the count under a key is that of its entry. -/
theorem count?_eq_some_iff (once : (tally.counts.map Prod.fst).Nodup) {key : κ} {count : Nat} :
    tally.count? key = some count ↔ (key, count) ∈ tally.counts := by
  rw [count?, Option.map_eq_some_iff]
  constructor
  · rintro ⟨⟨k, n⟩, found, rfl⟩
    have same : k = key := by simpa using List.find?_some found
    exact same ▸ List.mem_of_find?_eq_some found
  · intro entry
    have isSome : (tally.counts.find? (·.1 = key)).isSome := by
      rw [List.find?_isSome]
      exact ⟨(key, count), entry, decide_eq_true rfl⟩
    obtain ⟨other, found⟩ := Option.isSome_iff_exists.mp isSome
    have same : other.1 = key := by simpa using List.find?_some found
    have only := List.inj_on_of_nodup_map once (List.mem_of_find?_eq_some found) entry same
    exact ⟨other, found, congrArg Prod.snd only⟩

/-! ### Counting -/

/-- The tally has been taken of these keys, one after the other, by a map that may at any time change the
order in which it holds its entries. -/
inductive Taken : List κ → Tally κ → Prop where
  | empty : Taken [] empty
  | add {keys : List κ} {tally : Tally κ} (taken : Taken keys tally) (key : κ) :
      Taken (keys ++ [key]) (tally.add key)
  | reordered {keys : List κ} {tally : Tally κ} {entries : List (κ × Nat)}
      (taken : Taken keys tally) (order : tally.counts.Perm entries) :
      Taken keys { tally with counts := entries }

/-- The tally has each of the keys once, with the number of its occurrences, and no other key. -/
structure Exact (keys : List κ) (tally : Tally κ) : Prop where
  order : tally.order = firstOccurrences keys
  once : (tally.counts.map Prod.fst).Nodup
  counts : ∀ key count, (key, count) ∈ tally.counts ↔ key ∈ keys ∧ count = keys.count key

namespace Exact

theorem count?_eq (exact : Exact keys tally) (key : κ) :
    tally.count? key = if key ∈ keys then some (keys.count key) else none := by
  refine Option.ext fun count => ?_
  rw [count?_eq_some_iff exact.once, exact.counts]
  split <;> simp_all [eq_comm]

/-- A key that has not been met counts as zero, and only such a key does. -/
theorem getD_count? (exact : Exact keys tally) (key : κ) :
    (tally.count? key).getD 0 = keys.count key := by
  rw [exact.count?_eq]
  split
  next => rfl
  next new => exact (List.count_eq_zero.mpr new).symm

theorem empty : Exact [] (empty : Tally κ) where
  order := rfl
  once := List.nodup_nil
  counts := by simp [Tally.empty]

theorem add (exact : Exact keys tally) (key : κ) : Exact (keys ++ [key]) (tally.add key) where
  order := by
    simp only [Tally.add, exact.getD_count?, List.count_eq_zero, exact.order,
      firstOccurrences_concat, ite_not]
  once := nodup_setCount exact.once
  counts := by
    intro k n
    simp only [Tally.add, mem_setCount_iff exact.once, exact.counts, exact.getD_count?]
    by_cases same : k = key
    · subst same
      simp
    · simp [same, Ne.symm same]

theorem reordered (exact : Exact keys tally) {entries : List (κ × Nat)}
    (order : tally.counts.Perm entries) : Exact keys { tally with counts := entries } where
  order := exact.order
  once := (order.map _).nodup_iff.mp exact.once
  counts := by
    intro key count
    rw [← exact.counts]
    exact order.mem_iff.symm

end Exact

theorem Taken.exact (taken : Taken keys tally) : Exact keys tally := by
  induction taken with
  | empty => exact .empty
  | add _ key exact => exact exact.add key
  | reordered _ order exact => exact exact.reordered order

theorem Taken.foldl (taken : Taken keys tally) (more : List κ) :
    Taken (keys ++ more) (more.foldl Tally.add tally) := by
  induction more generalizing keys tally with
  | nil => rwa [List.append_nil]
  | cons key rest ih =>
      rw [List.foldl_cons, List.append_cons]
      exact ih (taken.add key)

theorem taken_ofList (keys : List κ) : Taken keys (ofList keys) :=
  Taken.empty.foldl keys

/-! ### The report -/

/-- Of every exact tally of the kinds the same is reported: each kind that occurs more than once, where it
occurs first. -/
theorem Exact.repeatedKindViolations_eq {kinds : List ActionKind} {tally : Tally ActionKind}
    (exact : Exact kinds tally) :
    tally.repeatedKindViolations = (firstOccurrences kinds).flatMap fun kind =>
      reportUnless (kinds.count kind ≤ 1) ⟨.repeatedAction kind (kinds.count kind), none⟩ := by
  rw [repeatedKindViolations, exact.order]
  refine List.flatMap_congr fun kind member => ?_
  rw [exact.count?_eq, if_pos (mem_firstOccurrences.mp member)]

end Tally

theorem Strategy.repeatedKindViolations_eq (strategy : Strategy) :
    strategy.repeatedKindViolations =
      (firstOccurrences strategy.ownActionKinds).flatMap fun kind =>
        reportUnless (strategy.ownActionKinds.count kind ≤ 1)
          ⟨.repeatedAction kind (strategy.ownActionKinds.count kind), none⟩ :=
  (Tally.taken_ofList strategy.ownActionKinds).exact.repeatedKindViolations_eq

end VolBacktest
