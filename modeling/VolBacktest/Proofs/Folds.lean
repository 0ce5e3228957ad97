/-!
# What a fold leaves behind

Steps of a fold may overwrite what earlier steps have written. An observation of the state then depends on
the last element that writes it, and on no other: whatever comes before is overwritten, and whatever comes
after is silent.
-/

namespace VolBacktest

variable {σ α β : Type} (observe : σ → β) {step : σ → α → σ} {write : α → Option β}

/-- An observation that no step changes is still there after a fold. -/
theorem observe_foldl_of_silent (one : ∀ state a, observe (step state a) = observe state)
    (items : List α) (state : σ) : observe (items.foldl step state) = observe state := by
  induction items generalizing state with
  | nil => rfl
  | cons a rest ih => rw [List.foldl_cons, ih, one]

/-- The observation after a fold is what the last writing element has written, and the old
observation if no element writes. -/
theorem observe_foldl (one : ∀ state a, observe (step state a) = (write a).getD (observe state))
    (items : List α) (state : σ) :
    observe (items.foldl step state) =
      (items.reverse.findSome? write).getD (observe state) := by
  induction items generalizing state with
  | nil => rfl
  | cons a rest ih =>
      rw [List.foldl_cons, ih, one, List.reverse_cons, List.findSome?_append]
      cases rest.reverse.findSome? write with
      | none => cases h : write a <;> simp [h]
      | some value => rfl

/-- The last writing element has only silent elements after it. -/
theorem findSome?_reverse_eq_some_iff {items : List α} {value : β} :
    items.reverse.findSome? write = some value ↔
      ∃ before a after, items = before ++ a :: after ∧ write a = some value ∧
        ∀ later ∈ after, write later = none := by
  rw [List.findSome?_eq_some_iff]
  constructor
  · rintro ⟨after, a, before, split, written, silent⟩
    refine ⟨before.reverse, a, after.reverse, ?_, written, ?_⟩
    · have mirrored := congrArg List.reverse split
      simpa using mirrored
    · intro later member
      exact silent later (List.mem_reverse.mp member)
  · rintro ⟨before, a, after, rfl, written, silent⟩
    refine ⟨after.reverse, a, before.reverse, by simp, written, ?_⟩
    intro later member
    exact silent later (List.mem_reverse.mp member)

/-- The same with other words for what it is to write the value and to be silent. -/
theorem findSome?_reverse_eq_some_iff_of {items : List α} {value : β} {writes silent : α → Prop}
    (written : ∀ a ∈ items, (write a = some value ↔ writes a))
    (unwritten : ∀ a ∈ items, (write a = none ↔ silent a)) :
    items.reverse.findSome? write = some value ↔
      ∃ before a after, items = before ++ a :: after ∧ writes a ∧
        ∀ later ∈ after, silent later := by
  rw [findSome?_reverse_eq_some_iff]
  refine exists_congr fun before => exists_congr fun a => exists_congr fun after => ?_
  refine and_congr_right fun split => and_congr ?_ ?_
  · exact written a (by simp [split])
  · exact forall₂_congr fun later member => unwritten later (by simp [split, member])

/-- If any element writes, one of them is the last. -/
theorem exists_findSome?_reverse {items : List α} {a : α} {value : β} (member : a ∈ items)
    (written : write a = some value) : ∃ last, items.reverse.findSome? write = some last := by
  have any : ∃ source ∈ items.reverse, (write source).isSome :=
    ⟨a, List.mem_reverse.mpr member, by simp [written]⟩
  exact Option.isSome_iff_exists.mp (List.findSome?_isSome_iff.mpr any)

end VolBacktest
