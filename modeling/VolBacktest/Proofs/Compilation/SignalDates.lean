import VolBacktest.Proofs.Compilation.Agreement
import VolBacktest.Proofs.Lowering.LastWrite

/-!
# Dates of signals in a compiled configuration

An accepted aggregate gives the dates of its date child to the side that its portfolio child stands
for. Nothing in the rules keeps two aggregates from standing for one side, and a series is replaced
as a whole: what a compiled configuration has on a side are the dates of the last aggregate of that
side, in its order. No date is lost exactly if the last aggregate of each side repeats all others.
-/

namespace VolBacktest

/-- The side that a condition on an empty portfolio stands for. -/
def Direction.side : Direction → SignalSide
  | .equal => .tradeIn
  | .above => .tradeOut
  | .below => .tradeOut

/-- The trigger combines a child of these dates with a portfolio child that stands for the side. -/
def Trigger.Signals (trigger : Trigger) (side : SignalSide) (dates : List Date) : Prop :=
  ∃ children actions, trigger = .aggregate children actions ∧
    (∃ child, .date child ∈ children ∧ child.requirement = dates) ∧
    ∃ gate, .portfolio gate ∈ children ∧ gate.requirement.direction.side = side

/-- These are the dates of the last aggregate of the side. -/
def Strategy.LastSignals (strategy : Strategy) (side : SignalSide) (dates : List Date) : Prop :=
  ∃ before last after, strategy.triggers = before ++ last :: after ∧ last.Signals side dates ∧
    ∀ later ∈ after, ∀ others, ¬later.Signals side others

/-- The series of the side has the date. -/
def Config.HasDate (config : Config) (side : SignalSide) (date : Date) : Prop :=
  ∃ item ∈ config.series side, item.date = date

/-- Every date of every aggregate is in the series of its side. -/
def Config.KeepsSignalDates (config : Config) (strategy : Strategy) : Prop :=
  ∀ trigger ∈ strategy.triggers, ∀ side dates, trigger.Signals side dates →
    ∀ date ∈ dates, config.HasDate side date

theorem LevelRequirement.side_of_gate {requirement : LevelRequirement}
    (gate : requirement.IsPortfolioGate) : requirement.side = requirement.direction.side := by
  rw [side]
  cases requirement.direction <;> simp [gate.2, Direction.side]

theorem SignalItem.map_firesOn_inj {a b : List Date} :
    a.map firesOn = b.map firesOn ↔ a = b := by
  apply List.map_inj_right
  intro first second same
  exact congrArg SignalItem.date same

namespace Trigger

theorem signals_gated (dates : List Date) (direction : Direction) (action : Action) :
    (gated dates direction action).Signals direction.side dates := by
  refine ⟨_, _, rfl, ⟨⟨dates, [action]⟩, List.mem_cons_self, rfl⟩, ?_⟩
  exact ⟨_, List.mem_cons_of_mem _ List.mem_cons_self, rfl⟩

/-- A composed aggregate has one child of each role, so there is nothing to choose between. -/
theorem IsComposed.signals_iff {trigger : Trigger} (composed : trigger.IsComposed)
    {side : SignalSide} {dates : List Date} :
    trigger.Signals side dates ↔ trigger.items side = some (dates.map SignalItem.firesOn) := by
  cases trigger with
  | aggregate children actions =>
      obtain ⟨child, gate, isGate, shape⟩ := composed
      have signal : (aggregate children actions).signal =
          some ⟨gate.requirement.direction.side, child.requirement.map SignalItem.firesOn⟩ := by
        rw [← LevelRequirement.side_of_gate isGate]
        obtain rfl | rfl := shape <;> rfl
      have roles : (aggregate children actions).Signals side dates ↔
          gate.requirement.direction.side = side ∧ child.requirement = dates := by
        obtain rfl | rfl := shape <;> simp [Signals, and_comm]
      rw [roles, items, signal, Option.bind_some]
      by_cases same : gate.requirement.direction.side = side <;>
        simp [same, SignalItem.map_firesOn_inj]
  | date _ => simp [Signals, items, signal]
  | portfolio _ => simp [Signals, items, signal]
  | periodic _ => simp [Signals, items, signal]
  | market _ => simp [Signals, items, signal]
  | risk _ => simp [Signals, items, signal]

/-- All items of a signal fire. -/
theorem exists_dates_of_items {trigger : Trigger} {side : SignalSide} {series : List SignalItem}
    (h : trigger.items side = some series) :
    ∃ dates : List Date, series = dates.map SignalItem.firesOn := by
  cases trigger with
  | aggregate children actions =>
      obtain ⟨found, signal, given⟩ := Option.bind_eq_some_iff.mp h
      simp only [Trigger.signal, Signal.ofChildren] at signal
      split at signal
      next child _ _ _ _ _ =>
        refine ⟨child.requirement, ?_⟩
        cases signal
        split at given <;> simp_all
      next => contradiction
  | date _ => simp [items, signal] at h
  | portfolio _ => simp [items, signal] at h
  | periodic _ => simp [items, signal] at h
  | market _ => simp [items, signal] at h
  | risk _ => simp [items, signal] at h

theorem IsComposed.items_eq_none_iff {trigger : Trigger} (composed : trigger.IsComposed)
    {side : SignalSide} : trigger.items side = none ↔ ∀ dates, ¬trigger.Signals side dates := by
  constructor
  · intro silent dates signals
    rw [composed.signals_iff, silent] at signals
    contradiction
  · intro silent
    cases given : trigger.items side with
    | none => rfl
    | some series =>
        obtain ⟨dates, rfl⟩ := exists_dates_of_items given
        exact absurd (composed.signals_iff.mpr given) (silent dates)

end Trigger

namespace Strategy

variable {strategy : Strategy}

theorem lastSignals_iff (accepted : strategy.Accepted) {side : SignalSide} {dates : List Date} :
    strategy.LastSignals side dates ↔
      strategy.triggers.reverse.findSome? (Trigger.items · side) =
        some (dates.map SignalItem.firesOn) := by
  rw [LastSignals, findSome?_reverse_eq_some_iff_of]
  · intro trigger member
    exact (accepted.composed trigger member).signals_iff.symm
  · intro trigger member
    exact (accepted.composed trigger member).items_eq_none_iff

/-- A side that any aggregate stands for has a last one. -/
theorem exists_lastSignals (accepted : strategy.Accepted) {trigger : Trigger} {side : SignalSide}
    {dates : List Date} (member : trigger ∈ strategy.triggers)
    (signals : trigger.Signals side dates) : ∃ last, strategy.LastSignals side last := by
  have given := (accepted.composed trigger member).signals_iff.mp signals
  obtain ⟨series, found⟩ : ∃ series,
      strategy.triggers.reverse.findSome? (Trigger.items · side) = some series :=
    exists_findSome?_reverse member given
  obtain ⟨source, -, items⟩ := List.exists_of_findSome?_eq_some found
  obtain ⟨last, rfl⟩ := Trigger.exists_dates_of_items items
  exact ⟨last, (lastSignals_iff accepted).mpr found⟩

theorem LastSignals.series_configuration (accepted : strategy.Accepted) {side : SignalSide}
    {last : List Date} (signals : strategy.LastSignals side last) :
    strategy.configuration.series side = last.map SignalItem.firesOn := by
  rw [Strategy.series_configuration, (lastSignals_iff accepted).mp signals, Option.getD_some]

theorem LastSignals.hasDate_iff (accepted : strategy.Accepted) {side : SignalSide}
    {last : List Date} (signals : strategy.LastSignals side last) {date : Date} :
    strategy.configuration.HasDate side date ↔ date ∈ last := by
  simp [Config.HasDate, signals.series_configuration accepted, SignalItem.firesOn]

/-- The last aggregate of a side decides its series alone. So every date is kept exactly if the last
aggregate of each side has all the dates of the others; two aggregates of one side with different
dates break no rule. The numbers of a strategy are finite. -/
theorem keepsSignalDates_iff (silent : strategy.diagnostics = []) :
    ∃ config, strategy.compile = .ok config ∧
      (∀ side last, strategy.LastSignals side last →
        config.series side = last.map SignalItem.firesOn) ∧
      (config.KeepsSignalDates strategy ↔
        ∀ side last, strategy.LastSignals side last → ∀ trigger ∈ strategy.triggers,
          ∀ dates, trigger.Signals side dates → dates ⊆ last) := by
  have accepted := accepted_iff.mpr silent
  refine ⟨strategy.configuration, compile_eq_ok silent, ?_, ?_⟩
  · intro side last signals
    exact signals.series_configuration accepted
  · constructor
    · intro kept side last lastSignals trigger member dates signals date listed
      have present := kept trigger member side dates signals date listed
      exact (lastSignals.hasDate_iff accepted).mp present
    · intro repeated trigger member side dates signals date listed
      obtain ⟨last, lastSignals⟩ := exists_lastSignals accepted member signals
      have present := repeated side last lastSignals trigger member dates signals listed
      exact (lastSignals.hasDate_iff accepted).mpr present

/-- Positions are closed on two dates, with an aggregate for each. -/
def twoClosings : Strategy :=
  ⟨[], [.gated [.january] .above .exit, .gated [.july] .above .exit]⟩

theorem twoClosings_keepsSignalDates_iff :
    twoClosings.diagnostics = [] ∧ ∃ config, twoClosings.compile = .ok config ∧
      (∀ side last, twoClosings.LastSignals side last →
        config.series side = last.map SignalItem.firesOn) ∧
      (config.KeepsSignalDates twoClosings ↔
        ∀ side last, twoClosings.LastSignals side last → ∀ trigger ∈ twoClosings.triggers,
          ∀ dates, trigger.Signals side dates → dates ⊆ last) :=
  ⟨rfl, keepsSignalDates_iff rfl⟩

/-- The first closing date is lost. -/
theorem not_forall_keepsSignalDates :
    ¬∀ strategy config, Strategy.diagnostics strategy = [] → strategy.compile = .ok config →
      config.KeepsSignalDates strategy := by
  intro kept
  have keeps := kept twoClosings twoClosings.configuration rfl rfl
  have present := keeps _ List.mem_cons_self .tradeOut _ (Trigger.signals_gated _ _ _)
    .january List.mem_cons_self
  obtain ⟨item, member, same⟩ := present
  have only : item = .firesOn .july := List.mem_singleton.mp member
  rw [only] at same
  exact absurd (congrArg Date.month same) (by decide)

end Strategy

end VolBacktest
