import VolBacktest.Proofs.Compilation.Entries

/-!
# The initial value of a compiled configuration

A position measured in net asset value brings its quantity as the initial value, and every other
position leaves the initial value as it is. The last leaf with an enter action decides the type of
the quantity, but the last one measured in net asset value decides the initial value. The two belong
together unless a nonzero net asset value stays behind, under a position of another type.
-/

namespace VolBacktest

/-- The initial value is the quantity of a position measured in net asset value, and otherwise
zero. -/
structure Config.NavInvariant (config : Config) : Prop where
  nav : config.quantityType = some .nav → config.quantity = some config.initialValue
  other : config.quantityType ≠ some .nav → config.initialValue.isZero

/-- A leaf enters a position of nonzero net asset value, and after it positions are entered, but
none of them measured in net asset value. -/
def Strategy.StrandsValue (strategy : Strategy) : Prop :=
  ∃ before leaf after entry value, strategy.leaves = before ++ leaf :: after ∧
    leaf.Enters entry ∧ entry.quantityType = some .nav ∧ entry.quantity = some value ∧
      ¬value.isZero ∧ (∃ later ∈ after, ∃ other, later.Enters other) ∧
        ∀ later ∈ after, ∀ other, later.Enters other → other.quantityType ≠ some .nav

/-- A nonzero value comes from the quantity itself and not from its default. -/
theorem Leaf.initialValue_eq_some_iff {leaf : Leaf} {value : Binary64} (nonzero : ¬value.isZero) :
    leaf.initialValue = some value ↔ ∃ entry, leaf.entry = some entry ∧
      entry.quantityType = some .nav ∧ entry.quantity = some value := by
  rw [initialValue, Option.bind_eq_some_iff]
  refine exists_congr fun entry => and_congr_right fun _ => ?_
  by_cases nav : entry.quantityType = some .nav
  · rw [if_pos nav, Option.some.injEq]
    cases entry.quantity with
    | none =>
        have default : Binary64.zero ≠ value := by
          rintro rfl
          exact nonzero Binary64.isZero_zero
        simp [default]
    | some own => simp [nav]
  · simp [nav]

namespace Strategy

variable {strategy : Strategy}

/-- A nonzero initial value is that of the last position measured in net asset value. -/
theorem lastValue_iff (accepted : strategy.Accepted) {value : Binary64}
    (nonzero : ¬value.isZero) :
    strategy.leaves.reverse.findSome? Leaf.initialValue = some value ↔
      ∃ before leaf after, strategy.leaves = before ++ leaf :: after ∧
        (∃ entry, leaf.Enters entry ∧ entry.quantityType = some .nav ∧
          entry.quantity = some value) ∧
        ∀ later ∈ after, ∀ other, later.Enters other → other.quantityType ≠ some .nav := by
  apply findSome?_reverse_eq_some_iff_of
  · intro leaf member
    simp only [accepted.enters_iff member]
    exact Leaf.initialValue_eq_some_iff nonzero
  · intro leaf member
    simp only [accepted.enters_iff member]
    exact Leaf.initialValue_eq_none_iff

/-- Where positions are entered after a leaf, the last of all comes from these leaves. -/
theorem lastEntry_of_later (accepted : strategy.Accepted) {before after : List Leaf}
    {leaf later : Leaf} {entry : EnterAction}
    (split : strategy.leaves = before ++ leaf :: after) (member : later ∈ after)
    (enters : later.Enters entry) :
    ∃ source ∈ after, ∃ last, source.Enters last ∧ strategy.lastEntry = some last := by
  have entered := (accepted.enters_iff (by simp [split, member])).mp enters
  obtain ⟨last, found⟩ := exists_findSome?_reverse member entered
  obtain ⟨source, atSource, given⟩ := List.exists_of_findSome?_eq_some found
  have inAfter := List.mem_reverse.mp atSource
  refine ⟨source, inAfter, last, ?_, ?_⟩
  · exact (accepted.enters_iff (by simp [split, inAfter])).mpr given
  · rw [lastEntry, split, List.reverse_append, List.reverse_cons, List.append_assoc,
      List.findSome?_append, found, Option.some_or]

/-- In terms of the two leaves that write last: the type is not net asset value, and the value is
not zero. -/
theorem strandsValue_iff (accepted : strategy.Accepted) :
    strategy.StrandsValue ↔
      (∃ last, strategy.lastEntry = some last ∧ last.quantityType ≠ some .nav) ∧
        ∃ value, strategy.leaves.reverse.findSome? Leaf.initialValue = some value ∧
          ¬value.isZero := by
  constructor
  · rintro ⟨before, leaf, after, entry, value, split, enters, nav, quantity, nonzero,
      ⟨later, member, other, entersLater⟩, others⟩
    obtain ⟨source, atSource, last, entersLast, isLast⟩ :=
      lastEntry_of_later accepted split member entersLater
    refine ⟨⟨last, isLast, others source atSource last entersLast⟩, value, ?_, nonzero⟩
    rw [lastValue_iff accepted nonzero]
    exact ⟨before, leaf, after, split, ⟨entry, enters, nav, quantity⟩, others⟩
  · rintro ⟨⟨last, isLast, otherType⟩, value, found, nonzero⟩
    obtain ⟨before, leaf, after, split, ⟨entry, enters, nav, quantity⟩, others⟩ :=
      (lastValue_iff accepted nonzero).mp found
    refine ⟨before, leaf, after, entry, value, split, enters, nav, quantity, nonzero, ?_, others⟩
    -- Without a later enter action, this one would be the last, which has another type.
    by_contra absent
    have unentered (later : Leaf) (member : later ∈ after) (other : EnterAction) :
        ¬later.Enters other := fun entersLater => absent ⟨later, member, other, entersLater⟩
    have same := (lastEnters_iff accepted).mp ⟨before, leaf, after, split, enters, unentered⟩
    rw [isLast, Option.some.injEq] at same
    exact otherType (same ▸ nav)

/-- The last position brings its own quantity, which an accepted strategy never leaves out. -/
theorem nav_configuration (accepted : strategy.Accepted)
    (nav : strategy.configuration.quantityType = some .nav) :
    strategy.configuration.quantity = some strategy.configuration.initialValue := by
  rw [quantityType_configuration, Option.bind_eq_some_iff] at nav
  obtain ⟨last, isLast, nav⟩ := nav
  obtain ⟨before, leaf, after, split, entered, silent⟩ := findSome?_reverse_eq_some_iff.mp isLast
  have member : leaf ∈ strategy.leaves := by simp [split]
  have fits := accepted.fits_of_enters member ((accepted.enters_iff member).mpr entered)
  obtain ⟨value, quantity⟩ := Option.isSome_iff_exists.mp fits.2.2.1
  have written : strategy.leaves.reverse.findSome? Leaf.initialValue = some value := by
    rw [findSome?_reverse_eq_some_iff]
    refine ⟨before, leaf, after, split, ?_, ?_⟩
    · simp [Leaf.initialValue, entered, nav, quantity]
    · intro later atLater
      rw [Leaf.initialValue, silent later atLater, Option.bind_none]
  rw [quantity_configuration, initialValue_configuration, isLast, written, Option.bind_some,
    quantity, Option.getD_some]

theorem navInvariant_configuration_iff (accepted : strategy.Accepted) :
    strategy.configuration.NavInvariant ↔ ¬strategy.StrandsValue := by
  constructor
  · intro invariant stranded
    obtain ⟨⟨last, isLast, otherType⟩, value, found, nonzero⟩ :=
      (strandsValue_iff accepted).mp stranded
    have isZero := invariant.other (by simpa [quantityType_configuration, isLast] using otherType)
    rw [initialValue_configuration, found, Option.getD_some] at isZero
    exact nonzero isZero
  · intro unstranded
    refine ⟨nav_configuration accepted, ?_⟩
    intro otherType
    by_contra nonzero
    rw [initialValue_configuration] at nonzero
    cases found : strategy.leaves.reverse.findSome? Leaf.initialValue with
    | none =>
        rw [found, Option.getD_none] at nonzero
        exact nonzero Binary64.isZero_zero
    | some value =>
        rw [found, Option.getD_some] at nonzero
        obtain ⟨leaf, atLeaf, written⟩ := List.exists_of_findSome?_eq_some found
        have member := List.mem_reverse.mp atLeaf
        obtain ⟨entry, entered, -⟩ := (Leaf.initialValue_eq_some_iff nonzero).mp written
        obtain ⟨last, lastEnters⟩ :=
          exists_lastEnters accepted member ((accepted.enters_iff member).mpr entered)
        have isLast := (lastEnters_iff accepted).mp lastEnters
        rw [quantityType_configuration, isLast, Option.bind_some] at otherType
        exact unstranded
          ((strandsValue_iff accepted).mpr ⟨⟨last, isLast, otherType⟩, value, found, nonzero⟩)

/-- Under net asset value the initial value is always the quantity. Under another type it is zero
exactly if no net asset value was left behind by an earlier position. The numbers of a strategy are
finite. -/
theorem navInvariant_iff {config : Config} (compiled : strategy.compile = .ok config) :
    (config.quantityType = some .nav → config.quantity = some config.initialValue) ∧
      (config.NavInvariant ↔ ¬strategy.StrandsValue) := by
  obtain ⟨silent, rfl⟩ := compile_eq_ok_iff.mp compiled
  have accepted := accepted_iff.mpr silent
  exact ⟨nav_configuration accepted, navInvariant_configuration_iff accepted⟩

/-- A position measured in net asset value is replaced by one of five units. -/
def valueThenUnits : Strategy :=
  ⟨[], [.gated [.january] .equal (.enter (.monthlyOptions 1000 .nav)),
    .gated [.july] .above (.enter (.monthlyOptions 5 .quantity))]⟩

theorem valueThenUnits_navInvariant_iff :
    valueThenUnits.compile = .ok valueThenUnits.configuration ∧
      (valueThenUnits.configuration.quantityType = some .nav →
        valueThenUnits.configuration.quantity =
          some valueThenUnits.configuration.initialValue) ∧
      (valueThenUnits.configuration.NavInvariant ↔ ¬valueThenUnits.StrandsValue) :=
  ⟨rfl, navInvariant_iff rfl⟩

/-- The value of the first position stays behind. -/
theorem not_forall_navInvariant :
    ¬∀ strategy config, Strategy.compile strategy = .ok config → config.NavInvariant := by
  intro invariant
  have stale := (invariant valueThenUnits valueThenUnits.configuration rfl).other (by decide)
  exact absurd stale (by decide)

end Strategy

end VolBacktest
