import VolBacktest.Compilation
import VolBacktest.Proofs.Lowering.ClosedForm
import VolBacktest.Proofs.Rules.Accepted

/-!
# Judging and lowering agree

The rules for leaves and the lowering of leaves are two separate case analyses of actions. They meet
in `Leaf.diagnostic_of_fault`: wherever lowering would fail, the report has the corresponding entry
at the same place. Compilation therefore fails with the report and never inside lowering.
-/

namespace VolBacktest

/-- The report has an entry with this code at this place. -/
def Strategy.Reports (strategy : Strategy) (code path : String) : Prop :=
  ∃ diagnostic ∈ strategy.diagnostics, diagnostic.phase = .validate ∧ diagnostic.code = code ∧
    diagnostic.path = some path

namespace Leaf

theorem mem_actions_of_action {leaf : Leaf} {action : Action} (h : leaf.action = some action) :
    action ∈ leaf.trigger.actions :=
  List.mem_of_head? h

/-- The report has the breaches of every action of every leaf. -/
theorem reports_of_breach {strategy : Strategy} {leaf : Leaf} {action : Action} (breach : Breach)
    (member : leaf ∈ strategy.leaves) (owned : action ∈ leaf.trigger.actions)
    (broken : breach ∈ action.breaches leaf.trigger) :
    strategy.Reports breach.code leaf.location.path := by
  have onLeaf : breach ∈ leaf.trigger.leafBreaches :=
    List.mem_append_right _ (List.mem_flatMap.mpr ⟨action, owned, broken⟩)
  have atLeaf : breach.at leaf.location ∈ leaf.violations :=
    List.mem_map.mpr ⟨breach, onLeaf, rfl⟩
  have inReport : breach.at leaf.location ∈ strategy.violations :=
    List.mem_append_right _ (List.mem_flatMap.mpr ⟨leaf, member, atLeaf⟩)
  exact ⟨_, List.mem_map.mpr ⟨_, inReport, rfl⟩, rfl, rfl, rfl⟩

/-- Wherever a hedge cannot be mapped, its frequency breaks the rule for hedges. -/
theorem reports_of_unmapped {strategy : Strategy} {leaf : Leaf} {frequency : Option String}
    {path : String} (member : leaf ∈ strategy.leaves)
    (h : leaf.fault = some (.unmappedHedgeFrequency frequency path)) :
    strategy.Reports "T007" path := by
  obtain ⟨⟨hedge, first⟩, own, unmapped, rfl⟩ := fault_eq_unmapped h
  refine reports_of_breach (.hedgeFrequency frequency) member (mem_actions_of_action first) ?_
  subst own
  exact List.mem_append_right _ (by simp [unmapped])

/-- Wherever an action cannot be lowered, its kind breaks the rule for actions. -/
theorem reports_of_unsupported {strategy : Strategy} {leaf : Leaf} {kind path : String}
    (member : leaf ∈ strategy.leaves)
    (h : leaf.fault = some (.unsupportedAction kind path)) :
    strategy.Reports "T008" path := by
  obtain ⟨⟨action, first, refused, -⟩, rfl⟩ := fault_eq_unsupported h
  refine reports_of_breach (.unsupportedAction action.kind) member
    (mem_actions_of_action first) ?_
  cases action with
  | enter _ => contradiction
  | hedge _ => contradiction
  | exit => contradiction
  | addTrade _ => exact List.mem_singleton_self _
  | rebalance _ => exact List.mem_singleton_self _

/-- No leaf is faulty beside an empty report. -/
theorem fault_eq_none {strategy : Strategy} {leaf : Leaf} (silent : strategy.diagnostics = [])
    (member : leaf ∈ strategy.leaves) : leaf.fault = none := by
  have unreported (code path : String) : ¬strategy.Reports code path := by
    rintro ⟨diagnostic, reported, -⟩
    simp [silent] at reported
  cases h : leaf.fault with
  | none => rfl
  | some error =>
      cases error with
      | rejected diagnostics => exact absurd h fault_ne_rejected
      | unmappedHedgeFrequency frequency path =>
          exact absurd (reports_of_unmapped member h) (unreported _ _)
      | unsupportedAction kind path =>
          exact absurd (reports_of_unsupported member h) (unreported _ _)

end Leaf

namespace Strategy

theorem compile_eq (strategy : Strategy) :
    strategy.compile =
      if strategy.diagnostics = [] then strategy.lower
      else .error (.rejected strategy.diagnostics) := by
  simp only [diagnostics_eq_nil_iff, compile, compileJournaled, Journaled.record_def,
    Journaled.ok_bind]
  by_cases silent : strategy.violations = []
  · have empty : strategy.violations.isEmpty := by simp [silent]
    rw [if_pos empty, if_pos silent, Journaled.result_bind, lower]
    cases strategy.lowerJournaled.result <;> rfl
  · have reported : ¬strategy.violations.isEmpty := by simpa using silent
    rw [if_neg reported, if_neg silent]
    rfl

/-- Lowering succeeds beside an empty report, and compilation with it. -/
theorem compile_eq_ok {strategy : Strategy} (silent : strategy.diagnostics = []) :
    strategy.compile = .ok strategy.configuration := by
  rw [compile_eq, if_pos silent, lower_eq_ok_iff]
  exact ⟨fun _ member => Leaf.fault_eq_none silent member, rfl⟩

theorem compile_eq_ok_iff {strategy : Strategy} {config : Config} :
    strategy.compile = .ok config ↔
      strategy.diagnostics = [] ∧ strategy.configuration = config := by
  constructor
  · intro compiled
    by_cases silent : strategy.diagnostics = []
    · rw [compile_eq_ok silent] at compiled
      exact ⟨silent, Except.ok.inj compiled⟩
    · rw [compile_eq, if_neg silent] at compiled
      contradiction
  · rintro ⟨silent, rfl⟩
    exact compile_eq_ok silent

/-- Compilation succeeds exactly beside an empty report, and otherwise hands the report on as it
is. The errors of lowering never come out of it, and a strategy that would meet one has an entry
about it in its report, at the place of the error. The numbers of a strategy are finite. -/
theorem compile_agrees_with_report (strategy : Strategy) :
    (strategy.diagnostics = [] →
      ∃ config, strategy.compile = .ok config ∧ strategy.lower = .ok config) ∧
    (strategy.diagnostics ≠ [] →
      ∃ error, strategy.compile = .error error ∧ error = .rejected strategy.diagnostics ∧
        error.diagnostics = strategy.diagnostics) ∧
    (∀ frequency path, strategy.compile ≠ .error (.unmappedHedgeFrequency frequency path)) ∧
    (∀ kind path, strategy.compile ≠ .error (.unsupportedAction kind path)) ∧
    (∀ frequency path, strategy.lower = .error (.unmappedHedgeFrequency frequency path) →
      strategy.Reports "T007" path) ∧
    (∀ kind path, strategy.lower = .error (.unsupportedAction kind path) →
      strategy.Reports "T008" path) := by
  have onlyRejected (error : CompileError) (failed : strategy.compile = .error error) :
      error = .rejected strategy.diagnostics := by
    by_cases silent : strategy.diagnostics = []
    · rw [compile_eq_ok silent] at failed
      contradiction
    · rw [compile_eq, if_neg silent] at failed
      exact (Except.error.inj failed).symm
  refine ⟨?_, ?_, ?_, ?_, ?_, ?_⟩
  · intro silent
    refine ⟨strategy.configuration, compile_eq_ok silent, ?_⟩
    exact lower_eq_ok_iff.mpr ⟨fun _ member => Leaf.fault_eq_none silent member, rfl⟩
  · intro reported
    exact ⟨_, by rw [compile_eq, if_neg reported], rfl, rfl⟩
  · intro frequency path failed
    have same := onlyRejected _ failed
    contradiction
  · intro kind path failed
    have same := onlyRejected _ failed
    contradiction
  · intro frequency path failed
    obtain ⟨leaf, member, faulty⟩ := fault_of_lower_eq_error failed
    exact Leaf.reports_of_unmapped member faulty
  · intro kind path failed
    obtain ⟨leaf, member, faulty⟩ := fault_of_lower_eq_error failed
    exact Leaf.reports_of_unsupported member faulty

/-- A hedge on every business day. -/
def dailyHedge : Strategy :=
  ⟨[], [.periodic ⟨businessDay, [.hedge ⟨.eqDelta, some businessDay⟩]⟩]⟩

/-- A hedge in weeks, which the engine has no label for. -/
def weeklyHedge : Strategy := ⟨[], [.periodic ⟨"W", [.hedge ⟨.eqDelta, some "W"⟩]⟩]⟩

/-- An addition of trades on a child of an aggregate. -/
def addedTrades : Strategy := ⟨[], [.aggregate [.date ⟨[], [.addTrade ⟨[], none⟩]⟩] []]⟩

/-- A strategy that compiles, and one for each error of lowering. -/
theorem agreement_at_hedges_and_trades :
    (dailyHedge.diagnostics = [] ∧
      ∃ config, dailyHedge.compile = .ok config ∧ dailyHedge.lower = .ok config) ∧
    (weeklyHedge.diagnostics ≠ [] ∧
      ∃ error, weeklyHedge.compile = .error error ∧ error = .rejected weeklyHedge.diagnostics ∧
        error.diagnostics = weeklyHedge.diagnostics) ∧
    (weeklyHedge.lower = .error (.unmappedHedgeFrequency (some "W") "triggers[0]") ∧
      weeklyHedge.Reports "T007" "triggers[0]") ∧
    (addedTrades.lower = .error (.unsupportedAction "AddTradeAction" "triggers[0].triggers[0]") ∧
      addedTrades.Reports "T008" "triggers[0].triggers[0]") := by
  have daily := compile_agrees_with_report dailyHedge
  have weekly := compile_agrees_with_report weeklyHedge
  have trades := compile_agrees_with_report addedTrades
  refine ⟨⟨rfl, daily.1 rfl⟩, ⟨by decide, weekly.2.1 (by decide)⟩, ⟨rfl, ?_⟩, ⟨rfl, ?_⟩⟩
  · exact weekly.2.2.2.2.1 (some "W") "triggers[0]" rfl
  · exact trades.2.2.2.2.2 "AddTradeAction" "triggers[0].triggers[0]" rfl

end Strategy

end VolBacktest
