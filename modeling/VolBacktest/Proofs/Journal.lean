import VolBacktest.Journal

/-!
# Traversals with a journal

The events of a journaled computation never influence its result, so results compose on their own, as in
`Except`.

The traversals of this library fail at fixed elements and leave fixed events, whatever state they have
reached. Such a traversal either ends with the fold over all its elements or with the error of the first
element at which it fails, and its events are those of the elements before.
-/

namespace VolBacktest

namespace Journaled

variable {ε α β σ : Type}

theorem result_bind (first : Journaled ε α) (next : α → Journaled ε β) :
    (first >>= next).result = first.result.bind fun value => (next value).result := by
  obtain ⟨events, result⟩ := first
  cases result <;> rfl

theorem events_bind_of_ok {first : Journaled ε α} {value : α} (succeeds : first.result = .ok value)
    (next : α → Journaled ε β) :
    (first >>= next).events = first.events ++ (next value).events := by
  obtain ⟨events, result⟩ := first
  subst succeeds
  rfl

/-- What one step does is fixed by `note`, `fault` and `next`, and a failing step is silent; then so is what the
whole traversal does. The induction is over the elements, for every state that a step may start from. -/
theorem foldlM_eq {step : σ → α → Journaled ε σ} {note : α → Option Event} {fault : α → Option ε}
    {next : σ → α → σ}
    (one : ∀ state a, step state a = ⟨(note a).toList, (fault a).elim (.ok (next state a)) .error⟩)
    (silent : ∀ a error, fault a = some error → note a = none) (items : List α) (state : σ) :
    items.foldlM step state =
      ⟨(items.takeWhile fun a => (fault a).isNone).filterMap note,
        (items.findSome? fault).elim (.ok (items.foldl next state)) .error⟩ := by
  induction items generalizing state with
  | nil => rfl
  | cons a rest ih =>
      rw [List.foldlM_cons, one, List.takeWhile_cons, List.findSome?_cons, List.foldl_cons]
      cases faulty : fault a with
      | some error =>
          rw [silent a error faulty]
          rfl
      | none =>
          simp only [Option.elim_none, ok_bind, ih, Option.isNone_none, if_true, List.filterMap_cons]
          cases note a <;> rfl

/-- A traversal without failing steps is a fold. -/
theorem foldlM_eq_of_ok {step : σ → α → Journaled ε σ} {note : α → Option Event} {next : σ → α → σ}
    (one : ∀ state a, step state a = ⟨(note a).toList, .ok (next state a)⟩) (items : List α)
    (state : σ) :
    items.foldlM step state = ⟨items.filterMap note, .ok (items.foldl next state)⟩ := by
  induction items generalizing state with
  | nil => rfl
  | cons a rest ih =>
      rw [List.foldlM_cons, one, ok_bind, ih, List.filterMap_cons]
      cases note a <;> rfl

end Journaled

end VolBacktest
