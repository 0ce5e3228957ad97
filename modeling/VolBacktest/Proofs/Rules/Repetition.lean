import VolBacktest.Proofs.Rules.Concatenation

/-!
# Repeated kinds of action

The own actions of all triggers are counted by their kinds in one pass, and each kind that has come up more
than once is reported once, with the number of times. The entries are in the order in which the kinds come up
first. That order is kept beside the map with the counts, so it does not matter how the map orders its
entries, and every kind that is looked up in the map at the end is there.
-/

namespace VolBacktest

/-- The entry about a kind of action that occurs so often. -/
def Diagnostic.ofRepetition (kind : ActionKind) (count : Nat) : Diagnostic where
  phase := .validate
  code := "V009"
  message := "There are multiple actions of the same type: " ++ kind.name ++ " x" ++ toString count
  path := none

/-- One entry for each element that does not meet the condition. -/
theorem flatMap_reportUnless {α : Type} (condition : α → Prop) [DecidablePred condition]
    (violation : α → Violation) (items : List α) :
    (items.flatMap fun a => reportUnless (condition a) (violation a)) =
      (items.filter fun a => ¬condition a).map violation := by
  induction items with
  | nil => rfl
  | cons a rest ih =>
      rw [List.flatMap_cons, ih, reportUnless]
      by_cases meets : condition a <;> simp [meets]

namespace Strategy

variable (strategy : Strategy)

/-- The kinds that occur at least twice among the own actions, each where it occurs first. -/
def repeatedKinds : List ActionKind :=
  (firstOccurrences strategy.ownActionKinds).filter fun kind =>
    2 ≤ strategy.ownActionKinds.count kind

theorem mem_repeatedKinds_iff {kind : ActionKind} :
    kind ∈ strategy.repeatedKinds ↔ 2 ≤ strategy.ownActionKinds.count kind := by
  rw [repeatedKinds, List.mem_filter, mem_firstOccurrences, decide_eq_true_eq]
  refine and_iff_right_of_imp fun often => ?_
  exact List.count_pos_iff.mp (Nat.lt_of_lt_of_le Nat.zero_lt_two often)

theorem repeatedKindViolations_eq_map :
    strategy.repeatedKindViolations = strategy.repeatedKinds.map fun kind =>
      ⟨.repeatedAction kind (strategy.ownActionKinds.count kind), none⟩ := by
  rw [repeatedKindViolations_eq, flatMap_reportUnless, repeatedKinds]
  simp only [Nat.not_le]
  rfl

/-- The entries with the code of the rule are those about repeated kinds. -/
theorem reported_repetitions :
    strategy.reported "V009" = strategy.repeatedKindViolations.map Violation.diagnostic := by
  have only (breach : Breach) (same : breach.code = "V009") : breach.pass = none := by
    cases breach <;> simp_all [Breach.code, Breach.pass]
  have repeats : strategy.repeatedKindViolations.filter (·.breach.code = "V009") =
      strategy.repeatedKindViolations := by
    refine List.filter_eq_self.mpr fun violation member => ?_
    obtain ⟨kind, -, rfl⟩ := mem_repeatedKindViolations_iff.mp member
    simp [Breach.code]
  rw [reported_across only, violationsAcross, List.filter_append, List.filter_append,
    filter_reportUnless_of_ne (by simp [Breach.at, Breach.code]),
    filter_reportUnless_of_ne (by simp [Breach.at, Breach.code]), repeats, List.nil_append,
    List.nil_append]

/-- Each kind that occurs at least twice among the own actions of the triggers has one entry, with the exact
number; the entries are in the order of the first occurrences. The same is reported whenever the kinds are
counted by a map that orders its entries in any way and at any time anew, and no count is missing in it. -/
theorem repetitions_exact :
    (∃ kinds : List ActionKind,
      (∀ kind, kind ∈ kinds ↔ 2 ≤ strategy.ownActionKinds.count kind) ∧
        kinds.Pairwise (fun first second =>
          strategy.ownActionKinds.idxOf first < strategy.ownActionKinds.idxOf second) ∧
        strategy.reported "V009" = kinds.map fun kind =>
          .ofRepetition kind (strategy.ownActionKinds.count kind)) ∧
      Tally.Taken strategy.ownActionKinds (.ofList strategy.ownActionKinds) ∧
      ∀ tally, Tally.Taken strategy.ownActionKinds tally →
        (∀ kind ∈ tally.order, tally.count? kind = some (strategy.ownActionKinds.count kind)) ∧
          tally.repeatedKindViolations.map Violation.diagnostic = strategy.reported "V009" := by
  refine ⟨⟨strategy.repeatedKinds, fun kind => strategy.mem_repeatedKinds_iff, ?ordered, ?entries⟩,
    Tally.taken_ofList _, fun tally taken => ⟨?found, ?same⟩⟩
  case ordered => exact (pairwise_firstOccurrences strategy.ownActionKinds).filter _
  case entries =>
    rw [reported_repetitions, repeatedKindViolations_eq_map, List.map_map]
    rfl
  case found =>
    intro kind member
    rw [taken.exact.order, mem_firstOccurrences] at member
    rw [taken.exact.count?_eq, if_pos member]
  case same =>
    rw [reported_repetitions, repeatedKindViolations_eq, taken.exact.repeatedKindViolations_eq]

/-- Exits that come up before, between and after hedges. -/
def exitsAmongHedges : Strategy :=
  let hedge := Action.hedge ⟨.eqDelta, some businessDay⟩
  ⟨[], [.periodic ⟨"1m", [.exit, hedge]⟩, .aggregate [] [.exit], .periodic ⟨"B", [hedge, .exit]⟩]⟩

/-- A map that has the hedges before the exits does not put them first in the report. -/
theorem repetitions_exitsAmongHedges :
    let tally : Tally ActionKind := ⟨[(.hedge, 2), (.exit, 3)], [.exit, .hedge]⟩
    Tally.Taken exitsAmongHedges.ownActionKinds tally ∧
      tally.repeatedKindViolations.map Violation.diagnostic = exitsAmongHedges.reported "V009" ∧
        exitsAmongHedges.reported "V009" = [.ofRepetition .exit 3, .ofRepetition .hedge 2] := by
  intro tally
  obtain ⟨-, ofList, whenTaken⟩ := exitsAmongHedges.repetitions_exact
  have taken : Tally.Taken exitsAmongHedges.ownActionKinds tally := ofList.reordered (.swap _ _ _)
  refine ⟨taken, (whenTaken tally taken).2, ?_⟩
  rw [← (whenTaken tally taken).2]
  rfl

end Strategy

end VolBacktest
