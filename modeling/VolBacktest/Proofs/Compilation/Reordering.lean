import Mathlib.Data.List.Permutation
import VolBacktest.Proofs.Compilation.Entries
import VolBacktest.Proofs.Compilation.Reliance
import VolBacktest.Proofs.Lowering.Writes
import VolBacktest.Proofs.Rules.Grammar
import VolBacktest.Proofs.Traversals

/-!
# The order of triggers

The triggers of an accepted strategy can be put into any order, and so can the children of its
aggregates: the strategy stays accepted. Its configuration can only change if two leaves enter a
position or two aggregates stand for one side, since the later of the two is then another one. The
order of children does not even matter then, and hedges and exits may stand anywhere.
-/

namespace VolBacktest

/-- The same trigger, up to the order of the children of the aggregates in it. -/
inductive Trigger.Reordered : Trigger → Trigger → Prop where
  | same (trigger : Trigger) : Reordered trigger trigger
  | children {children middle others : List Trigger} (actions : List Action)
      (inside : List.Forall₂ Reordered children middle) (order : middle.Perm others) :
      Reordered (.aggregate children actions) (.aggregate others actions)

namespace Strategy

/-- The same strategy, up to the order of its triggers and of the children of aggregates. -/
structure Reordered (strategy other : Strategy) : Prop where
  initialPortfolio : other.initialPortfolio = strategy.initialPortfolio
  triggers : ∃ middle, List.Forall₂ Trigger.Reordered strategy.triggers middle ∧
    middle.Perm other.triggers

/-- Two leaves have an enter action. -/
def EntersTwice (strategy : Strategy) : Prop :=
  ∃ first second a b, [first, second].Sublist strategy.leaves ∧ first.Enters a ∧ second.Enters b

/-- Two triggers are aggregates of one side. -/
def SignalsTwice (strategy : Strategy) : Prop :=
  ∃ side first second dates others, [first, second].Sublist strategy.triggers ∧
    first.Signals side dates ∧ second.Signals side others

end Strategy

/-! ### One trigger -/

namespace Trigger

/-- All that a strategy shows of a trigger in the grammar, but for the order of its children. -/
structure Interchangeable (first second : Trigger) : Prop where
  inGrammar : second.InGrammar
  actions : second.actions = first.actions
  leafTriggers : second.leafTriggers = first.leafTriggers
  signal : second.signal = first.signal

namespace Reordered

theorem eq_of_date {dates : Guarded (List Date)} (other : Trigger)
    (reordered : (Trigger.date dates).Reordered other) : other = .date dates := by
  cases reordered
  rfl

theorem eq_of_portfolio {gate : Guarded LevelRequirement} (other : Trigger)
    (reordered : (Trigger.portfolio gate).Reordered other) : other = .portfolio gate := by
  cases reordered
  rfl

/-- Of two children without an aggregate among them, the order is all that can change. -/
theorem eq_or_flipped {a b : Trigger} {middle others : List Trigger}
    (rigidA : ∀ other, a.Reordered other → other = a)
    (rigidB : ∀ other, b.Reordered other → other = b)
    (inside : List.Forall₂ Reordered [a, b] middle) (order : middle.Perm others) :
    others = [a, b] ∨ others = [b, a] := by
  obtain ⟨_, _, insideA, rest, rfl⟩ := List.forall₂_cons_left_iff.mp inside
  obtain ⟨_, _, insideB, none, rfl⟩ := List.forall₂_cons_left_iff.mp rest
  obtain rfl := List.forall₂_nil_left_iff.mp none
  rw [rigidA _ insideA, rigidB _ insideB] at order
  exact List.pair_perm.mp order

theorem interchangeable {first second : Trigger} (reordered : first.Reordered second)
    (grammatical : first.InGrammar) : first.Interchangeable second := by
  cases reordered with
  | same => exact ⟨grammatical, rfl, rfl, rfl⟩
  | children own inside order =>
      cases grammatical with
      | datesFirst dates action gate own permitted empty known =>
          obtain rfl | rfl := eq_or_flipped eq_of_date eq_of_portfolio inside order
          · exact ⟨.datesFirst dates action gate own permitted empty known, rfl, rfl, rfl⟩
          · exact ⟨.gateFirst dates action gate own permitted empty known, rfl, rfl, rfl⟩
      | gateFirst dates action gate own permitted empty known =>
          obtain rfl | rfl := eq_or_flipped eq_of_portfolio eq_of_date inside order
          · exact ⟨.gateFirst dates action gate own permitted empty known, rfl, rfl, rfl⟩
          · exact ⟨.datesFirst dates action gate own permitted empty known, rfl, rfl, rfl⟩

end Reordered

namespace Interchangeable

variable {triggers others : List Trigger}

theorem items {first second : Trigger} (same : first.Interchangeable second) (side : SignalSide) :
    second.items side = first.items side := by
  rw [Trigger.items, same.signal, Trigger.items]

theorem inGrammar_of_mem (alike : List.Forall₂ Interchangeable triggers others) :
    ∀ trigger ∈ others, trigger.InGrammar := by
  induction alike with
  | nil => simp
  | cons same _ ih => exact List.forall_mem_cons.mpr ⟨same.inGrammar, ih⟩

end Interchangeable

end Trigger

/-! ### Strategies -/

namespace Strategy

variable {strategy other : Strategy}

/-- Triggers that are reordered in themselves alone are interchangeable. -/
theorem Accepted.interchangeable (accepted : strategy.Accepted) {triggers : List Trigger}
    (inside : List.Forall₂ Trigger.Reordered strategy.triggers triggers) :
    List.Forall₂ Trigger.Interchangeable strategy.triggers triggers := by
  obtain ⟨-, -, grammatical, -⟩ := accepted_iff_triggers_inGrammar.mp accepted
  refine List.Forall₂.imp ?_ ((List.forall₂_and_left _ _).mpr ⟨grammatical, inside⟩)
  rintro first second ⟨inGrammar, reordered⟩
  exact reordered.interchangeable inGrammar

namespace Reordered

theorem interchangeable (reordered : strategy.Reordered other) (accepted : strategy.Accepted) :
    ∃ middle, List.Forall₂ Trigger.Interchangeable strategy.triggers middle ∧
      middle.Perm other.triggers := by
  obtain ⟨-, middle, inside, order⟩ := reordered
  exact ⟨middle, accepted.interchangeable inside, order⟩

/-- What is computed trigger by trigger comes in another order at most. -/
theorem perm_map (reordered : strategy.Reordered other) (accepted : strategy.Accepted) {α : Type}
    {view : Trigger → α}
    (one : ∀ first second, first.Interchangeable second → view second = view first) :
    (strategy.triggers.map view).Perm (other.triggers.map view) := by
  obtain ⟨middle, alike, order⟩ := reordered.interchangeable accepted
  rw [← map_eq_of_forall₂ one alike]
  exact order.map view

theorem perm_flatMap (reordered : strategy.Reordered other) (accepted : strategy.Accepted)
    {α : Type} {view : Trigger → List α}
    (one : ∀ first second, first.Interchangeable second → view second = view first) :
    (strategy.triggers.flatMap view).Perm (other.triggers.flatMap view) := by
  rw [List.flatMap_def, List.flatMap_def]
  exact (reordered.perm_map accepted one).flatten

/-- Every rule is kept in any order. -/
theorem accepted (reordered : strategy.Reordered other) (accepted : strategy.Accepted) :
    other.Accepted := by
  obtain ⟨noPositions, atMostThree, -, kindsOnce⟩ := accepted_iff_triggers_inGrammar.mp accepted
  obtain ⟨middle, alike, order⟩ := reordered.interchangeable accepted
  refine accepted_iff_triggers_inGrammar.mpr ⟨?_, ?_, ?_, ?_⟩
  · rw [reordered.initialPortfolio, noPositions]
  · rw [← order.length_eq, ← alike.length_eq]
    exact atMostThree
  · intro trigger member
    exact Trigger.Interchangeable.inGrammar_of_mem alike trigger (order.mem_iff.mpr member)
  · have kinds : strategy.ownActionKinds.Perm other.ownActionKinds :=
      reordered.perm_flatMap accepted fun _ _ same => by rw [same.actions]
    exact kinds.nodup_iff.mp kindsOnce

theorem perm_entries (reordered : strategy.Reordered other) (accepted : strategy.Accepted) :
    strategy.entries.Perm other.entries := by
  rw [entries_eq, entries_eq]
  exact reordered.perm_flatMap accepted fun _ _ same => by rw [same.leafTriggers]

theorem perm_seriesOn (reordered : strategy.Reordered other) (accepted : strategy.Accepted)
    (side : SignalSide) : (strategy.seriesOn side).Perm (other.seriesOn side) := by
  have items := reordered.perm_map accepted fun _ _ same => same.items side
  rw [seriesOn_eq, seriesOn_eq]
  exact items.filterMap id

/-- All hedges are the same, so that they have only one order. -/
theorem hedges_eq (reordered : strategy.Reordered other) (accepted : strategy.Accepted) :
    other.hedges = strategy.hedges := by
  have order : strategy.hedges.Perm other.hedges := by
    rw [Strategy.hedges_eq, Strategy.hedges_eq]
    exact reordered.perm_flatMap accepted fun _ _ same => by rw [same.leafTriggers]
  apply List.ext_getElem order.length_eq.symm
  intro index _ _
  rw [DeltaHedge.eq_daily other.hedges[index], DeltaHedge.eq_daily strategy.hedges[index]]

end Reordered

/-- Without two leaves that enter a position, there is one order of positions. -/
theorem Accepted.entries_eq_of_perm (accepted : strategy.Accepted)
    (once : ¬strategy.EntersTwice) (order : strategy.entries.Perm other.entries) :
    other.entries = strategy.entries := by
  apply filterMap_eq_of_perm _ order
  intro first second among a b entryFirst entrySecond
  have entersFirst := (accepted.enters_iff (among.subset (by simp))).mpr entryFirst
  have entersSecond := (accepted.enters_iff (among.subset (by simp))).mpr entrySecond
  exact once ⟨first, second, a, b, among, entersFirst, entersSecond⟩

/-- Without two aggregates of one side, there is one order of series on each side. -/
theorem Accepted.seriesOn_eq_of_perm (accepted : strategy.Accepted)
    (once : ¬strategy.SignalsTwice) {side : SignalSide}
    (order : (strategy.seriesOn side).Perm (other.seriesOn side)) :
    other.seriesOn side = strategy.seriesOn side := by
  apply filterMap_eq_of_perm _ order
  intro first second among _ _ itemsFirst itemsSecond
  obtain ⟨dates, -, signalsFirst⟩ := accepted.signals_of_items (among.subset (by simp)) itemsFirst
  obtain ⟨others, -, signalsSecond⟩ :=
    accepted.signals_of_items (among.subset (by simp)) itemsSecond
  exact once ⟨side, first, second, dates, others, among, signalsFirst, signalsSecond⟩

/-- An accepted strategy compiles in every order of its triggers and of the children in them, and
its configuration only depends on the order of the positions and, for each side, on the order of the
series. So it can change only if there are two positions or two series of a side; the hedge never
changes, nor does anything if only children change places. The numbers of a strategy are finite. -/
theorem compile_reordered (silent : strategy.diagnostics = [])
    (reordered : strategy.Reordered other) :
    ∃ config changed, strategy.compile = .ok config ∧ other.compile = .ok changed ∧
      (changed ≠ config → strategy.EntersTwice ∨ strategy.SignalsTwice) ∧
      (other.entries = strategy.entries →
        (∀ side, other.seriesOn side = strategy.seriesOn side) → changed = config) ∧
      changed.hedge = config.hedge ∧
      (List.Forall₂ Trigger.Reordered strategy.triggers other.triggers → changed = config) := by
  have accepted := accepted_iff.mpr silent
  have hedges := reordered.hedges_eq accepted
  have sameWrites (entries : other.entries = strategy.entries)
      (series : ∀ side, other.seriesOn side = strategy.seriesOn side) :
      other.configuration = strategy.configuration := configuration_congr entries series hedges
  refine ⟨strategy.configuration, other.configuration, compile_eq_ok silent,
    compile_eq_ok (accepted_iff.mp (reordered.accepted accepted)), ?_, sameWrites, ?_, ?_⟩
  · contrapose!
    rintro ⟨entersOnce, signalsOnce⟩
    apply sameWrites
    · exact accepted.entries_eq_of_perm entersOnce (reordered.perm_entries accepted)
    · intro side
      exact accepted.seriesOn_eq_of_perm signalsOnce (reordered.perm_seriesOn accepted side)
  · rw [hedge_configuration_eq_getLast?, hedges, hedge_configuration_eq_getLast?]
  · intro inside
    have alike := accepted.interchangeable inside
    apply sameWrites
    · rw [entries_eq, entries_eq, List.flatMap_def, List.flatMap_def,
        map_eq_of_forall₂ (fun _ _ same => by rw [same.leafTriggers]) alike]
    · intro side
      rw [seriesOn_eq, seriesOn_eq,
        map_eq_of_forall₂ (fun _ _ same => same.items side) alike]

/-- The two closings in the other order, one of them with its children in the other order. -/
def turnedClosings : Strategy :=
  ⟨[], [.gated [.july] .above .exit,
    .aggregate [.portfolio ⟨⟨portfolioLength, .zero, .above⟩, []⟩, .date ⟨[.january], [.exit]⟩] []]⟩

theorem twoClosings_reordered : twoClosings.Reordered turnedClosings := by
  refine ⟨rfl, turnedClosings.triggers.reverse, ?_, List.reverse_perm _⟩
  refine .cons (.children [] ?_ (List.Perm.swap _ _ [])) (.cons (.same _) .nil)
  exact .cons (.same _) (.cons (.same _) .nil)

/-- The other closing is now the last. -/
theorem configuration_turnedClosings :
    turnedClosings.configuration ≠ twoClosings.configuration := by
  intro same
  have series : turnedClosings.configuration.tradeOut = [.firesOn .july] :=
    congrArg Config.tradeOut same
  exact absurd (congrArg (List.map fun item => item.date.month) series) (by decide)

theorem compile_turnedClosings :
    twoClosings.diagnostics = [] ∧ twoClosings.Reordered turnedClosings ∧
      turnedClosings.configuration ≠ twoClosings.configuration ∧
      ∃ config changed, twoClosings.compile = .ok config ∧ turnedClosings.compile = .ok changed ∧
        (changed ≠ config → twoClosings.EntersTwice ∨ twoClosings.SignalsTwice) ∧
        (turnedClosings.entries = twoClosings.entries →
          (∀ side, turnedClosings.seriesOn side = twoClosings.seriesOn side) →
            changed = config) ∧
        changed.hedge = config.hedge ∧
        (List.Forall₂ Trigger.Reordered twoClosings.triggers turnedClosings.triggers →
          changed = config) :=
  ⟨rfl, twoClosings_reordered, configuration_turnedClosings,
    compile_reordered rfl twoClosings_reordered⟩

end Strategy

end VolBacktest
