import VolBacktest.Proofs.Compilation.Agreement
import VolBacktest.Proofs.Lowering.LastWrite
import VolBacktest.Proofs.Rules.Leaves

/-!
# Positions in a compiled configuration

A configuration has room for one position, and the last leaf that enters one fills it. The rule
that no kind of action occurs twice is about own actions of triggers: it keeps two periodic
triggers from both entering, but it does not see the date children of aggregates. Nothing is
overwritten exactly if all leaves that enter a position enter the same one.
-/

namespace VolBacktest

/-- The leaf has this enter action. -/
def Leaf.Enters (leaf : Leaf) (entry : EnterAction) : Prop :=
  .enter entry ∈ leaf.trigger.actions

namespace Config

/-- The configuration has the position of the action. -/
structure Carries (config : Config) (entry : EnterAction) : Prop where
  instruments : config.instruments = some entry.instruments
  rollFrequency : config.rollFrequency = entry.duration
  quantity : config.quantity = entry.quantity
  quantityType : config.quantityType = entry.quantityType

/-- The position of every enter action of every leaf is in the configuration. -/
def CarriesEntries (config : Config) (strategy : Strategy) : Prop :=
  ∀ leaf ∈ strategy.leaves, ∀ entry, leaf.Enters entry → config.Carries entry

variable {config : Config}

theorem carries_iff {entry : EnterAction} :
    config.Carries entry ↔ config.parameters = entry.parameters := by
  simp only [parameters, EnterAction.parameters, Prod.mk.injEq]
  constructor
  · intro h
    exact ⟨h.instruments, h.rollFrequency, h.quantity, h.quantityType⟩
  · rintro ⟨instruments, rollFrequency, quantity, quantityType⟩
    exact ⟨instruments, rollFrequency, quantity, quantityType⟩

/-- There is room for one position only. -/
theorem Carries.unique {a b : EnterAction} (first : config.Carries a) (second : config.Carries b) :
    a = b := by
  have same : a.parameters = b.parameters :=
    (carries_iff.mp first).symm.trans (carries_iff.mp second)
  exact EnterAction.parameters_inj same

end Config

namespace Strategy

variable {strategy : Strategy}

/-- The action is that of the last leaf with an enter action. -/
def LastEnters (strategy : Strategy) (entry : EnterAction) : Prop :=
  ∃ before leaf after, strategy.leaves = before ++ leaf :: after ∧ leaf.Enters entry ∧
    ∀ later ∈ after, ∀ other, ¬later.Enters other

/-- A leaf of an accepted strategy has no second action. -/
theorem Accepted.enters_iff (accepted : strategy.Accepted) {leaf : Leaf} {entry : EnterAction}
    (member : leaf ∈ strategy.leaves) : leaf.Enters entry ↔ leaf.entry = some entry := by
  obtain ⟨action, single, -⟩ := accepted.single leaf member
  simp only [Leaf.Enters, Leaf.entry, Leaf.action, single, List.mem_singleton, List.head?_cons]
  cases action <;> simp [eq_comm]

theorem Accepted.fits_of_enters (accepted : strategy.Accepted) {leaf : Leaf} {entry : EnterAction}
    (member : leaf ∈ strategy.leaves) (enters : leaf.Enters entry) : entry.Fits leaf.trigger := by
  obtain ⟨action, single, fits⟩ := accepted.single leaf member
  rw [Leaf.Enters, single, List.mem_singleton] at enters
  rw [← enters] at fits
  exact fits

theorem Accepted.entry_eq_none_iff (accepted : strategy.Accepted) {leaf : Leaf}
    (member : leaf ∈ strategy.leaves) : leaf.entry = none ↔ ∀ entry, ¬leaf.Enters entry := by
  simp only [accepted.enters_iff member]
  exact Option.eq_none_iff_forall_ne_some

theorem lastEnters_iff (accepted : strategy.Accepted) {entry : EnterAction} :
    strategy.LastEnters entry ↔ strategy.lastEntry = some entry := by
  rw [LastEnters, lastEntry, findSome?_reverse_eq_some_iff_of]
  · intro leaf member
    exact (accepted.enters_iff member).symm
  · intro leaf member
    exact accepted.entry_eq_none_iff member

/-- If any leaf enters a position, one of them is the last. -/
theorem exists_lastEnters (accepted : strategy.Accepted) {leaf : Leaf} {entry : EnterAction}
    (member : leaf ∈ strategy.leaves) (enters : leaf.Enters entry) :
    ∃ last, strategy.LastEnters last := by
  have entered := (accepted.enters_iff member).mp enters
  obtain ⟨last, found⟩ := exists_findSome?_reverse member entered
  exact ⟨last, (lastEnters_iff accepted).mpr found⟩

theorem LastEnters.exists_leaf {entry : EnterAction} (last : strategy.LastEnters entry) :
    ∃ leaf ∈ strategy.leaves, leaf.Enters entry := by
  obtain ⟨before, leaf, after, split, enters, -⟩ := last
  exact ⟨leaf, by simp [split], enters⟩

theorem LastEnters.carries_configuration (accepted : strategy.Accepted) {entry : EnterAction}
    (last : strategy.LastEnters entry) : strategy.configuration.Carries entry := by
  rw [Config.carries_iff, parameters_configuration, (lastEnters_iff accepted).mp last]
  rfl

/-- The last leaf with an enter action decides the position alone. So no enter action is overwritten
exactly if there are no two different ones, which the rules ensure for periodic leaves only. The
numbers of a strategy are finite. -/
theorem carriesEntries_iff (silent : strategy.diagnostics = []) :
    ∃ config, strategy.compile = .ok config ∧
      (∀ entry, strategy.LastEnters entry → config.Carries entry) ∧
      (config.CarriesEntries strategy ↔ ∀ first ∈ strategy.leaves, ∀ second ∈ strategy.leaves,
        ∀ a b, first.Enters a → second.Enters b → a = b) ∧
      (∀ first ∈ strategy.leaves, ∀ second ∈ strategy.leaves,
        first.trigger.kind = .periodic → second.trigger.kind = .periodic →
          ∀ a b, first.Enters a → second.Enters b → first = second) := by
  have accepted := accepted_iff.mpr silent
  refine ⟨strategy.configuration, compile_eq_ok silent, ?_, ?_, ?_⟩
  · intro entry last
    exact last.carries_configuration accepted
  · constructor
    · intro carries first atFirst second atSecond a b entersFirst entersSecond
      exact (carries first atFirst a entersFirst).unique (carries second atSecond b entersSecond)
    · intro same leaf member entry enters
      obtain ⟨last, isLast⟩ := exists_lastEnters accepted member enters
      obtain ⟨lastLeaf, atLast, entersLast⟩ := isLast.exists_leaf
      have equal : entry = last := same leaf member lastLeaf atLast entry last enters entersLast
      rw [equal]
      exact isLast.carries_configuration accepted
  · intro first atFirst second atSecond firstPeriodic secondPeriodic a b entersFirst entersSecond
    exact accepted.periodic_leaf_unique atFirst atSecond firstPeriodic secondPeriodic
      (List.mem_map.mpr ⟨_, entersFirst, rfl⟩) (List.mem_map.mpr ⟨_, entersSecond, rfl⟩)

end Strategy

/-- Options of this size, rolled every month. -/
def EnterAction.monthlyOptions (quantity : Nat) (quantityType : QuantityType) : EnterAction where
  instruments := [.ofKind .eqOption]
  duration := some "1m"
  quantity := Binary64.ofDecimal false quantity 0
  quantityType := some quantityType

namespace Strategy

/-- Different positions are entered while there is none and while there is one. -/
def twoEntries : Strategy :=
  ⟨[], [.gated [.january] .equal (.enter (.monthlyOptions 100 .quantity)),
    .gated [.july] .above (.enter (.monthlyOptions 250 .notional))]⟩

theorem twoEntries_carriesEntries_iff :
    twoEntries.diagnostics = [] ∧ ∃ config, twoEntries.compile = .ok config ∧
      (∀ entry, twoEntries.LastEnters entry → config.Carries entry) ∧
      (config.CarriesEntries twoEntries ↔
        ∀ first ∈ twoEntries.leaves, ∀ second ∈ twoEntries.leaves,
          ∀ a b, first.Enters a → second.Enters b → a = b) ∧
      (∀ first ∈ twoEntries.leaves, ∀ second ∈ twoEntries.leaves,
        first.trigger.kind = .periodic → second.trigger.kind = .periodic →
          ∀ a b, first.Enters a → second.Enters b → first = second) :=
  ⟨rfl, carriesEntries_iff rfl⟩

/-- The first position is overwritten. -/
theorem not_forall_carriesEntries :
    ¬∀ strategy config, Strategy.diagnostics strategy = [] → strategy.compile = .ok config →
      config.CarriesEntries strategy := by
  intro carried
  have carries := carried twoEntries twoEntries.configuration rfl rfl
  have first := carries _ List.mem_cons_self (.monthlyOptions 100 .quantity) List.mem_cons_self
  exact absurd first.quantityType (by decide)

end Strategy

end VolBacktest
