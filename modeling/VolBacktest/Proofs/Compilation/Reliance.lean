import VolBacktest.Proofs.Compilation.Entries
import VolBacktest.Proofs.Compilation.SignalDates
import VolBacktest.Proofs.Rules.Grammar

/-!
# What the engine may rely on

The engine takes a compiled configuration as it is and checks nothing. What it may nevertheless rely
on is `Config.Reliable`: a position is given as a whole or not at all, in instruments that can be
executed and for the period of its trigger, every date of a series comes from an aggregate of that
side, and there is a hedge exactly if a periodic trigger asks for one. None of it is written by
lowering alone. Each part is what the last writer leaves, read together with the rule that the
writer keeps.
-/

namespace VolBacktest

namespace Strategy

/-- The trigger at this index is periodic and hedges. -/
def HedgesAt (strategy : Strategy) (index : Nat) : Prop :=
  ∃ periodic hedge, strategy.triggers[index]? = some (.periodic periodic) ∧
    .hedge hedge ∈ periodic.actions

/-- The leaf has an enter action, and no leaf after it has one. -/
def LastEnteringLeaf (strategy : Strategy) (leaf : Leaf) : Prop :=
  ∃ before after, strategy.leaves = before ++ leaf :: after ∧ (∃ entry, leaf.Enters entry) ∧
    ∀ later ∈ after, ∀ other, ¬later.Enters other

end Strategy

namespace Config

/-- There is a position, of a given size. -/
def HasPosition (config : Config) : Prop :=
  config.instruments.isSome ∧ config.quantity.isSome ∧ config.quantityType.isSome

/-- Nothing is said about a position. -/
structure WithoutPosition (config : Config) : Prop where
  instruments : config.instruments = none
  quantity : config.quantity = none
  quantityType : config.quantityType = none
  rollFrequency : config.rollFrequency = none
  initialValue : config.initialValue = .zero

/-- What the engine may rely on in the configuration of a strategy. -/
structure Reliable (config : Config) (strategy : Strategy) : Prop where
  wholePosition : config.HasPosition ∨ config.WithoutPosition
  equityVol : ∀ instruments, config.instruments = some instruments →
    ∀ instrument ∈ instruments, instrument.kind = .eqOption ∨ instrument.kind = .eqVarianceSwap
  rolled : ∀ leaf, strategy.LastEnteringLeaf leaf →
    ∀ periodic, leaf.trigger = .periodic periodic →
      config.rollFrequency = some periodic.requirement
  /-- No item is invented or put on the wrong side. -/
  dated : ∀ side, ∀ item ∈ config.series side, item.value = true ∧
    ∃ trigger ∈ strategy.triggers, ∃ dates, trigger.Signals side dates ∧ item.date ∈ dates
  hedged : config.hedge = some ⟨.daily⟩ ↔ ∃ index, strategy.HedgesAt index
  hedgedOnce : ∀ first second, strategy.HedgesAt first → strategy.HedgesAt second → first = second

end Config

/-- There is only one way to hedge. -/
theorem DeltaHedge.eq_daily (hedge : DeltaHedge) : hedge = ⟨.daily⟩ := by
  obtain ⟨⟨⟩⟩ := hedge
  rfl

namespace Leaf

/-- A leaf that hedges has a hedge as its action and a frequency to hedge at. -/
theorem hedge_isSome_iff {leaf : Leaf} : leaf.hedge.isSome ↔
    (∃ hedge, leaf.action = some (.hedge hedge)) ∧ leaf.trigger.frequency = some businessDay := by
  rw [hedge]
  split
  next given =>
    rw [Option.isSome_map, Option.isSome_iff_ne_none, ne_eq, hedgeFrequency_eq_none_iff, not_not]
    simp [given]
  next other =>
    refine iff_of_false (by simp) ?_
    rintro ⟨⟨hedge, given⟩, -⟩
    exact other hedge given

end Leaf

namespace Strategy

variable {strategy : Strategy}

/-! ### Positions -/

/-- The last position is one that a leaf enters and that the rules allow there. -/
theorem exists_leaf_of_lastEntry (accepted : strategy.Accepted) {entry : EnterAction}
    (last : strategy.lastEntry = some entry) :
    ∃ leaf ∈ strategy.leaves, leaf.Enters entry ∧ entry.Fits leaf.trigger := by
  obtain ⟨leaf, member, enters⟩ := ((lastEnters_iff accepted).mpr last).exists_leaf
  exact ⟨leaf, member, enters, accepted.fits_of_enters member enters⟩

/-- Without a position there is no initial value either. -/
theorem initialValue_of_no_entry (unentered : strategy.lastEntry = none) :
    strategy.configuration.initialValue = .zero := by
  have unwritten : strategy.leaves.reverse.findSome? Leaf.initialValue = none := by
    rw [lastEntry, List.findSome?_eq_none_iff] at unentered
    rw [List.findSome?_eq_none_iff]
    intro leaf member
    rw [Leaf.initialValue, unentered leaf member, Option.bind_none]
  rw [initialValue_configuration, unwritten, Option.getD_none]

theorem wholePosition_configuration (accepted : strategy.Accepted) :
    strategy.configuration.HasPosition ∨ strategy.configuration.WithoutPosition := by
  cases last : strategy.lastEntry with
  | none =>
      right
      exact {
        instruments := by rw [instruments_configuration, last, Option.map_none]
        quantity := by rw [quantity_configuration, last, Option.bind_none]
        quantityType := by rw [quantityType_configuration, last, Option.bind_none]
        rollFrequency := by rw [rollFrequency_configuration, last, Option.bind_none]
        initialValue := initialValue_of_no_entry last }
  | some entry =>
      obtain ⟨leaf, -, -, -, -, sized, measured⟩ := exists_leaf_of_lastEntry accepted last
      refine .inl ⟨?_, ?_, ?_⟩
      · rw [instruments_configuration, last, Option.map_some, Option.isSome_some]
      · rw [quantity_configuration, last, Option.bind_some, sized]
      · rw [quantityType_configuration, last, Option.bind_some, measured]

theorem equityVol_configuration (accepted : strategy.Accepted) {instruments : List Instrument}
    (given : strategy.configuration.instruments = some instruments) {instrument : Instrument}
    (member : instrument ∈ instruments) :
    instrument.kind = .eqOption ∨ instrument.kind = .eqVarianceSwap := by
  rw [instruments_configuration, Option.map_eq_some_iff] at given
  obtain ⟨entry, last, rfl⟩ := given
  obtain ⟨leaf, -, -, -, suitable, -, -⟩ := exists_leaf_of_lastEntry accepted last
  exact InstrumentKind.isEquityVol_iff.mp (suitable instrument member)

/-- A periodic leaf enters a position for its own period. -/
theorem rolled_configuration (accepted : strategy.Accepted) {leaf : Leaf}
    (last : strategy.LastEnteringLeaf leaf) {periodic : Guarded String}
    (own : leaf.trigger = .periodic periodic) :
    strategy.configuration.rollFrequency = some periodic.requirement := by
  obtain ⟨before, after, split, ⟨entry, enters⟩, silent⟩ := last
  have lastEnters : strategy.LastEnters entry := ⟨before, leaf, after, split, enters, silent⟩
  have fits := accepted.fits_of_enters (by simp [split]) enters
  rw [(lastEnters.carries_configuration accepted).rollFrequency]
  apply fits.1
  rw [own]
  rfl

/-! ### Signals -/

/-- A trigger that gives a series to a side is an aggregate of that side. -/
theorem Accepted.signals_of_items (accepted : strategy.Accepted) {trigger : Trigger}
    {side : SignalSide} (member : trigger ∈ strategy.triggers) {series : List SignalItem}
    (given : trigger.items side = some series) :
    ∃ dates, series = dates.map SignalItem.firesOn ∧ trigger.Signals side dates := by
  obtain ⟨dates, same⟩ := Trigger.exists_dates_of_items given
  rw [same] at given
  exact ⟨dates, same, (accepted.composed trigger member).signals_iff.mpr given⟩

theorem dated_configuration (accepted : strategy.Accepted) {side : SignalSide} {item : SignalItem}
    (member : item ∈ strategy.configuration.series side) :
    item.value = true ∧
      ∃ trigger ∈ strategy.triggers, ∃ dates, trigger.Signals side dates ∧ item.date ∈ dates := by
  rw [series_configuration] at member
  cases found : strategy.triggers.reverse.findSome? (Trigger.items · side) with
  | none => simp [found] at member
  | some series =>
      rw [found, Option.getD_some] at member
      obtain ⟨trigger, placed, given⟩ := List.exists_of_findSome?_eq_some found
      have owned := List.mem_reverse.mp placed
      obtain ⟨dates, rfl, signals⟩ := accepted.signals_of_items owned given
      obtain ⟨date, listed, rfl⟩ := List.mem_map.mp member
      exact ⟨rfl, trigger, owned, dates, signals, listed⟩

/-! ### Hedges -/

/-- A trigger of the strategy that is no aggregate is a leaf itself. -/
theorem mem_leaves_of_periodic {index : Nat} {periodic : Guarded String}
    (found : strategy.triggers[index]? = some (.periodic periodic)) :
    ⟨.periodic periodic, .trigger index⟩ ∈ strategy.leaves :=
  mem_leaves_iff.mpr ⟨index, _, found, List.mem_cons_self⟩

/-- The leaves that hedge are the periodic triggers that do. -/
theorem exists_hedge_iff (accepted : strategy.Accepted) :
    (∃ leaf ∈ strategy.leaves, leaf.hedge.isSome) ↔ ∃ index, strategy.HedgesAt index := by
  constructor
  · rintro ⟨leaf, member, hedges⟩
    obtain ⟨⟨hedge, first⟩, daily⟩ := Leaf.hedge_isSome_iff.mp hedges
    obtain ⟨index, periodic, found, rfl⟩ | ⟨_, _, _, _, _, _, _, rfl⟩ :=
      accepted.leaf_cases member
    · exact ⟨index, periodic, hedge, found, Leaf.mem_actions_of_action first⟩
    · -- Dates have no frequency.
      contradiction
  · rintro ⟨index, periodic, hedge, found, owned⟩
    have member := mem_leaves_of_periodic found
    obtain ⟨action, single, fits⟩ := accepted.single _ member
    have only : periodic.actions = [action] := single
    obtain rfl : .hedge hedge = action := by simpa [only] using owned
    refine ⟨_, member, Leaf.hedge_isSome_iff.mpr ⟨⟨hedge, ?_⟩, fits.1⟩⟩
    rw [Leaf.action, single, List.head?_cons]

theorem hedged_configuration (accepted : strategy.Accepted) :
    strategy.configuration.hedge = some ⟨.daily⟩ ↔ ∃ index, strategy.HedgesAt index := by
  have given : strategy.configuration.hedge = some ⟨.daily⟩ ↔
      strategy.configuration.hedge.isSome := by
    rw [Option.isSome_iff_exists]
    constructor
    · intro daily
      exact ⟨_, daily⟩
    · rintro ⟨hedge, some⟩
      rw [some, hedge.eq_daily]
  rw [given, hedge_configuration, List.findSome?_isSome_iff, ← exists_hedge_iff accepted]
  simp only [List.mem_reverse]

theorem HedgesAt.unique (accepted : strategy.Accepted) {first second : Nat}
    (atFirst : strategy.HedgesAt first) (atSecond : strategy.HedgesAt second) :
    first = second := by
  obtain ⟨_, _, foundFirst, ownedFirst⟩ := atFirst
  obtain ⟨_, _, foundSecond, ownedSecond⟩ := atSecond
  exact accepted.index_eq_of_kind foundFirst foundSecond
    (List.mem_map.mpr ⟨_, ownedFirst, rfl⟩) (List.mem_map.mpr ⟨_, ownedSecond, rfl⟩)

/-- Whatever compiles is reliable, among strategies whose numbers are finite. -/
theorem reliable_of_compile {config : Config} (compiled : strategy.compile = .ok config) :
    config.Reliable strategy := by
  obtain ⟨silent, rfl⟩ := compile_eq_ok_iff.mp compiled
  have accepted := accepted_iff.mpr silent
  exact {
    wholePosition := wholePosition_configuration accepted
    equityVol := fun _ given _ member => equityVol_configuration accepted given member
    rolled := fun _ last _ own => rolled_configuration accepted last own
    dated := fun _ _ member => dated_configuration accepted member
    hedged := hedged_configuration accepted
    hedgedOnce := fun _ _ => HedgesAt.unique accepted }

/-- Options are rolled every month and hedged every day, and given up in the summer. -/
def rolledAndHedged : Strategy :=
  ⟨[], [.periodic ⟨"1m", [.enter (.monthlyOptions 5 .nav)]⟩,
    .periodic ⟨businessDay, [.hedge ⟨.eqDelta, some businessDay⟩]⟩,
    .gated [.july] .above .exit]⟩

theorem rolledAndHedged_reliable :
    rolledAndHedged.compile = .ok rolledAndHedged.configuration ∧
      rolledAndHedged.configuration.Reliable rolledAndHedged :=
  ⟨rfl, reliable_of_compile rfl⟩

end Strategy

end VolBacktest
