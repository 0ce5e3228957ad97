import VolBacktest.Proofs.Lowering.LastWrite

/-!
# A reference for lowering

Lowering runs through the triggers and the leaves and overwrites as it goes. What it leaves behind is
said here without running anything: which first actions have no counterpart in a configuration, and
for each part of a configuration which trigger or leaf is the last that has a say in it. The reference
is a relation, so it commits to no order of evaluation. Lowering gives what it says on every strategy,
the ones that break the engine's rules included.
-/

namespace VolBacktest

section LastWritten

variable {α β : Type} {writes : α → β → Prop} {items : List α}

/-- What is left after all items have had a chance to write: the value of the last item that writes
one, or nothing. -/
inductive LastWritten (writes : α → β → Prop) (items : List α) : Option β → Prop where
  | written {before after : List α} {a : α} {value : β} (split : items = before ++ a :: after)
      (written : writes a value) (silent : ∀ later ∈ after, ∀ other, ¬writes later other) :
      LastWritten writes items (some value)
  | untouched (silent : ∀ a ∈ items, ∀ value, ¬writes a value) : LastWritten writes items none

/-- A search from the end finds it, if it is told what each item writes. -/
theorem lastWritten_iff {write : α → Option β}
    (one : ∀ a value, write a = some value ↔ writes a value) {left : Option β} :
    LastWritten writes items left ↔ items.reverse.findSome? write = left := by
  have unwritten (a : α) : write a = none ↔ ∀ value, ¬writes a value := by
    simp only [Option.eq_none_iff_forall_ne_some, ne_eq, one]
  cases left with
  | none =>
      simp only [List.findSome?_eq_none_iff, List.mem_reverse, unwritten]
      constructor
      · intro (.untouched silent)
        exact silent
      · exact .untouched
  | some value =>
      rw [findSome?_reverse_eq_some_iff_of (fun a _ => one a value) (fun a _ => unwritten a)]
      constructor
      · intro (.written split written silent)
        exact ⟨_, _, _, split, written, silent⟩
      · rintro ⟨before, a, after, split, written, silent⟩
        exact .written split written silent

end LastWritten

/-! ### Aggregates -/

/-- The portfolio has to be empty: its size is compared for equality with either zero. -/
def LevelRequirement.AsksForNone (requirement : LevelRequirement) : Prop :=
  requirement.direction = .equal ∧ requirement.level.isZero

theorem LevelRequirement.side_eq_iff {requirement : LevelRequirement} {side : SignalSide} :
    requirement.side = side ↔ (side = .tradeIn ↔ requirement.AsksForNone) := by
  rw [LevelRequirement.side, AsksForNone]
  cases side <;> split <;> simp_all

/-- The first child of its kind. -/
def Trigger.FirstOfKind (children : List Trigger) (child : Trigger) : Prop :=
  ∃ before after, children = before ++ child :: after ∧
    ∀ earlier ∈ before, earlier.kind ≠ child.kind

namespace Trigger

/-- The trigger is an aggregate of both roles, and these are the entries of its series. -/
inductive Schedules (side : SignalSide) : Trigger → List SignalItem → Prop where
  | aggregate {children : List Trigger} {own : List Action} {dates : Guarded (List Date)}
      {gate : Guarded LevelRequirement} (firstDates : FirstOfKind children (.date dates))
      (firstGate : FirstOfKind children (.portfolio gate))
      (ofSide : side = .tradeIn ↔ gate.requirement.AsksForNone) :
      Schedules side (.aggregate children own) (dates.requirement.map fun date => ⟨date, true⟩)

/-- The first child with a role is the first of the kind that plays it. -/
theorem head?_filterMap_eq_some_iff {role : Trigger → Option ρ} {child : Trigger} {part : ρ}
    (plays : ∀ other, role other = some part ↔ other = child)
    (silent : ∀ other, role other = none ↔ other.kind ≠ child.kind) {children : List Trigger} :
    (children.filterMap role).head? = some part ↔ FirstOfKind children child := by
  simp only [List.head?_filterMap, List.findSome?_eq_some_iff, plays, silent, FirstOfKind]
  constructor
  · rintro ⟨before, _, after, split, rfl, earlier⟩
    exact ⟨before, after, split, earlier⟩
  · rintro ⟨before, after, split, earlier⟩
    exact ⟨before, child, after, split, rfl, earlier⟩

theorem asDate_eq_some_iff {trigger : Trigger} {dates : Guarded (List Date)} :
    trigger.asDate = some dates ↔ trigger = .date dates := by
  cases trigger <;> simp [asDate]

theorem asDate_eq_none_iff (trigger : Trigger) : trigger.asDate = none ↔ trigger.kind ≠ .date := by
  cases trigger <;> simp [asDate, kind]

theorem asPortfolio_eq_some_iff {trigger : Trigger} {gate : Guarded LevelRequirement} :
    trigger.asPortfolio = some gate ↔ trigger = .portfolio gate := by
  cases trigger <;> simp [asPortfolio]

theorem asPortfolio_eq_none_iff (trigger : Trigger) :
    trigger.asPortfolio = none ↔ trigger.kind ≠ .portfolio := by
  cases trigger <;> simp [asPortfolio, kind]

theorem firstDate_iff {children : List Trigger} {dates : Guarded (List Date)} :
    (children.filterMap asDate).head? = some dates ↔ FirstOfKind children (.date dates) :=
  head?_filterMap_eq_some_iff (fun _ => asDate_eq_some_iff) asDate_eq_none_iff

theorem firstGate_iff {children : List Trigger} {gate : Guarded LevelRequirement} :
    (children.filterMap asPortfolio).head? = some gate ↔ FirstOfKind children (.portfolio gate) :=
  head?_filterMap_eq_some_iff (fun _ => asPortfolio_eq_some_iff) asPortfolio_eq_none_iff

end Trigger

/-- An aggregate has a signal if both roles are filled, from the first children in them. -/
theorem Signal.ofChildren_eq_some_iff {children : List Trigger} {signal : Signal} :
    ofChildren children = some signal ↔
      ∃ dates gate, Trigger.FirstOfKind children (.date dates) ∧
        Trigger.FirstOfKind children (.portfolio gate) ∧
          signal = ⟨gate.requirement.side, dates.requirement.map SignalItem.firesOn⟩ := by
  simp only [ofChildren_eq_bind, Option.bind_eq_some_iff, Option.map_eq_some_iff,
    AggregateParts.dates_ofChildren, AggregateParts.portfolios_ofChildren, Trigger.firstDate_iff,
    Trigger.firstGate_iff, exists_and_left, @eq_comm _ signal]

theorem Trigger.items_eq_some_iff {trigger : Trigger} {side : SignalSide}
    {items : List SignalItem} :
    trigger.items side = some items ↔ trigger.Schedules side items := by
  simp only [Trigger.items, Option.bind_eq_some_iff, Option.ite_none_right_eq_some,
    Option.some.injEq]
  constructor
  · rintro ⟨signal, has, ofSide, rfl⟩
    cases trigger with
    | aggregate children own =>
        obtain ⟨dates, gate, firstDates, firstGate, rfl⟩ := Signal.ofChildren_eq_some_iff.mp has
        exact .aggregate firstDates firstGate (LevelRequirement.side_eq_iff.mp ofSide)
    | date _ => cases has
    | portfolio _ => cases has
    | periodic _ => cases has
    | market _ => cases has
    | risk _ => cases has
  · intro schedules
    cases schedules with
    | aggregate firstDates firstGate ofSide =>
        refine ⟨_, Signal.ofChildren_eq_some_iff.mpr ⟨_, _, firstDates, firstGate, rfl⟩, ?_, rfl⟩
        exact LevelRequirement.side_eq_iff.mpr ofSide

/-! ### Leaves -/

namespace Leaf

/-- The leaf enters this position. -/
def FirstEnters (leaf : Leaf) (entry : EnterAction) : Prop := leaf.action = some (.enter entry)

/-- The leaf enters a position sized in net asset value, which is then the initial value; a size
that is missing counts as zero. -/
def FirstEntersByValue (leaf : Leaf) (value : Binary64) : Prop :=
  ∃ entry, leaf.FirstEnters entry ∧ entry.quantityType = some .nav ∧
    value = entry.quantity.getD .zero

def FirstHedges (leaf : Leaf) : Prop := ∃ hedge, leaf.action = some (.hedge hedge)

/-- The first action of the leaf has no counterpart in a configuration, for this reason. -/
inductive Unlowerable (leaf : Leaf) : CompileError → Prop where
  | addTrade {action : AddTradeAction} (first : leaf.action = some (.addTrade action)) :
      Unlowerable leaf (.unsupportedAction "AddTradeAction" leaf.location.path)
  | rebalance {action : RebalanceAction} (first : leaf.action = some (.rebalance action)) :
      Unlowerable leaf (.unsupportedAction "RebalanceAction" leaf.location.path)
  | hedge (first : leaf.FirstHedges) (frequency : leaf.trigger.frequency ≠ some "B") :
      Unlowerable leaf
        (.unmappedHedgeFrequency leaf.trigger.frequency leaf.location.path)

theorem entry_eq_some_iff {leaf : Leaf} {entry : EnterAction} :
    leaf.entry = some entry ↔ leaf.FirstEnters entry := by
  rw [Leaf.entry, FirstEnters]
  split <;> simp_all

theorem initialValue_eq_some_iff_entersByValue {leaf : Leaf} {value : Binary64} :
    leaf.initialValue = some value ↔ leaf.FirstEntersByValue value := by
  simp only [Leaf.initialValue, FirstEntersByValue, Option.bind_eq_some_iff,
    Option.ite_none_right_eq_some, Option.some.injEq, entry_eq_some_iff]
  simp only [eq_comm]

theorem fault_eq_some_iff {leaf : Leaf} {error : CompileError} :
    leaf.fault = some error ↔ leaf.Unlowerable error := by
  constructor
  · intro faulty
    cases error with
    | rejected diagnostics => exact absurd faulty fault_ne_rejected
    | unmappedHedgeFrequency frequency path =>
        obtain ⟨hedges, rfl, unmapped, rfl⟩ := fault_eq_unmapped faulty
        exact .hedge hedges unmapped
    | unsupportedAction kind path =>
        obtain ⟨⟨action, first, refused, rfl⟩, rfl⟩ := fault_eq_unsupported faulty
        cases action with
        | enter _ => contradiction
        | hedge _ => contradiction
        | exit => contradiction
        | addTrade _ => exact .addTrade first
        | rebalance _ => exact .rebalance first
  · intro unlowerable
    rw [Leaf.fault]
    cases unlowerable with
    | addTrade first => rw [first]; rfl
    | rebalance first => rw [first]; rfl
    | hedge first frequency =>
        obtain ⟨hedge, first⟩ := first
        simp only [first, hedgeFrequency_eq_none_iff.mpr frequency]

theorem fault_eq_none_iff {leaf : Leaf} :
    leaf.fault = none ↔ ∀ error, ¬leaf.Unlowerable error := by
  simp only [Option.eq_none_iff_forall_ne_some, ne_eq, fault_eq_some_iff]

/-- A leaf that hedges and can be lowered hedges daily. -/
theorem hedge_eq_some_iff {leaf : Leaf} (healthy : ∀ error, ¬leaf.Unlowerable error)
    {hedge : DeltaHedge} : leaf.hedge = some hedge ↔ leaf.FirstHedges := by
  rw [Leaf.hedge]
  constructor
  · intro hedged
    split at hedged
    next action first => exact ⟨action, first⟩
    next => contradiction
  · intro hedges
    have mapped : leaf.hedgeFrequency ≠ none := fun unmapped =>
      healthy _ (.hedge hedges (hedgeFrequency_eq_none_iff.mp unmapped))
    obtain ⟨⟨⟩, daily⟩ := Option.ne_none_iff_exists'.mp mapped
    obtain ⟨action, first⟩ := hedges
    obtain ⟨⟨⟩⟩ := hedge
    simp only [first, daily, Option.map_some]

end Leaf

/-! ### Strategies -/

namespace Strategy

/-- The configuration that a strategy stands for, part by part. -/
structure Determines (strategy : Strategy) (config : Config) : Prop where
  tradeIn : ∃ items, LastWritten (Trigger.Schedules .tradeIn) strategy.triggers items ∧
    config.tradeIn = items.getD []
  tradeOut : ∃ items, LastWritten (Trigger.Schedules .tradeOut) strategy.triggers items ∧
    config.tradeOut = items.getD []
  position : ∃ entry, LastWritten Leaf.FirstEnters strategy.leaves entry ∧
    config.instruments = entry.map (·.instruments) ∧
    config.rollFrequency = entry.bind (·.duration) ∧
    config.quantity = entry.bind (·.quantity) ∧
    config.quantityType = entry.bind (·.quantityType)
  initialValue : ∃ value, LastWritten Leaf.FirstEntersByValue strategy.leaves value ∧
    config.initialValue = value.getD .zero
  hedge : config.hedge = some ⟨.daily⟩ ∧ (∃ leaf ∈ strategy.leaves, leaf.FirstHedges) ∨
    config.hedge = none ∧ ∀ leaf ∈ strategy.leaves, ¬leaf.FirstHedges

variable {strategy : Strategy} {config : Config}

theorem scheduled_iff {side : SignalSide} {items : Option (List SignalItem)} :
    LastWritten (Trigger.Schedules side) strategy.triggers items ↔
      strategy.triggers.reverse.findSome? (Trigger.items · side) = items :=
  lastWritten_iff fun _ _ => Trigger.items_eq_some_iff

theorem entered_iff {entry : Option EnterAction} :
    LastWritten Leaf.FirstEnters strategy.leaves entry ↔ strategy.lastEntry = entry :=
  lastWritten_iff fun _ _ => Leaf.entry_eq_some_iff

theorem valued_iff {value : Option Binary64} :
    LastWritten Leaf.FirstEntersByValue strategy.leaves value ↔
      strategy.leaves.reverse.findSome? Leaf.initialValue = value :=
  lastWritten_iff fun _ _ => Leaf.initialValue_eq_some_iff_entersByValue

/-- Of leaves that can be lowered, one that hedges is enough. -/
theorem hedge_configuration_eq_some_iff
    (healthy : ∀ leaf ∈ strategy.leaves, ∀ error, ¬leaf.Unlowerable error) {hedge : DeltaHedge} :
    strategy.configuration.hedge = some hedge ↔ ∃ leaf ∈ strategy.leaves, leaf.FirstHedges := by
  rw [hedge_configuration]
  constructor
  · intro found
    obtain ⟨leaf, member, written⟩ := List.exists_of_findSome?_eq_some found
    have member := List.mem_reverse.mp member
    exact ⟨leaf, member, (Leaf.hedge_eq_some_iff (healthy leaf member)).mp written⟩
  · rintro ⟨leaf, member, hedges⟩
    have written : leaf.hedge = some ⟨.daily⟩ :=
      (Leaf.hedge_eq_some_iff (healthy leaf member)).mpr hedges
    -- There is only one way to hedge, so the last hedge is this one.
    obtain ⟨⟨⟨⟩⟩, found⟩ := exists_findSome?_reverse member written
    obtain ⟨⟨⟩⟩ := hedge
    exact found

theorem determines_configuration
    (healthy : ∀ leaf ∈ strategy.leaves, ∀ error, ¬leaf.Unlowerable error) :
    strategy.Determines strategy.configuration where
  tradeIn := ⟨_, scheduled_iff.mpr rfl, strategy.series_configuration .tradeIn⟩
  tradeOut := ⟨_, scheduled_iff.mpr rfl, strategy.series_configuration .tradeOut⟩
  position := ⟨_, entered_iff.mpr rfl, strategy.instruments_configuration,
    strategy.rollFrequency_configuration, strategy.quantity_configuration,
    strategy.quantityType_configuration⟩
  initialValue := ⟨_, valued_iff.mpr rfl, strategy.initialValue_configuration⟩
  hedge := by
    by_cases hedges : ∃ leaf ∈ strategy.leaves, leaf.FirstHedges
    · exact .inl ⟨(hedge_configuration_eq_some_iff healthy).mpr hedges, hedges⟩
    · refine .inr ⟨?_, by simpa using hedges⟩
      rw [Option.eq_none_iff_forall_ne_some]
      intro hedge found
      exact hedges ((hedge_configuration_eq_some_iff healthy).mp found)

/-- The reference leaves no choice. -/
theorem Determines.unique {other : Config} (first : strategy.Determines config)
    (second : strategy.Determines other) : config = other := by
  obtain ⟨⟨_, in₁, tradeIn₁⟩, ⟨_, out₁, tradeOut₁⟩, ⟨_, entered₁, position₁⟩,
    ⟨_, valued₁, value₁⟩, hedge₁⟩ := first
  obtain ⟨⟨_, in₂, tradeIn₂⟩, ⟨_, out₂, tradeOut₂⟩, ⟨_, entered₂, position₂⟩,
    ⟨_, valued₂, value₂⟩, hedge₂⟩ := second
  obtain rfl := scheduled_iff.mp in₁
  obtain rfl := scheduled_iff.mp in₂
  obtain rfl := scheduled_iff.mp out₁
  obtain rfl := scheduled_iff.mp out₂
  obtain rfl := entered_iff.mp entered₁
  obtain rfl := entered_iff.mp entered₂
  obtain rfl := valued_iff.mp valued₁
  obtain rfl := valued_iff.mp valued₂
  have sameHedge : config.hedge = other.hedge := by
    obtain ⟨hedge₁, leaf, member, hedges⟩ | ⟨hedge₁, none₁⟩ := hedge₁
    · obtain ⟨hedge₂, -⟩ | ⟨-, none₂⟩ := hedge₂
      · rw [hedge₁, hedge₂]
      · exact absurd hedges (none₂ leaf member)
    · obtain ⟨-, leaf, member, hedges⟩ | ⟨hedge₂, -⟩ := hedge₂
      · exact absurd hedges (none₁ leaf member)
      · rw [hedge₁, hedge₂]
  obtain ⟨instruments₁, roll₁, quantity₁, type₁⟩ := position₁
  obtain ⟨instruments₂, roll₂, quantity₂, type₂⟩ := position₂
  cases config
  cases other
  simp_all

/-- The error of lowering is that of the first leaf with one. -/
theorem lower_eq_error_iff {error : CompileError} :
    strategy.lower = .error error ↔
      ∃ before leaf after, strategy.leaves = before ++ leaf :: after ∧
        leaf.Unlowerable error ∧ ∀ earlier ∈ before, ∀ other, ¬earlier.Unlowerable other := by
  have first : strategy.lower = .error error ↔
      strategy.leaves.findSome? Leaf.fault = some error := by
    rw [lower_eq]
    cases strategy.leaves.findSome? Leaf.fault <;> simp
  rw [first, List.findSome?_eq_some_iff]
  simp only [Leaf.fault_eq_some_iff, Leaf.fault_eq_none_iff]

theorem lower_eq_ok_iff_determines :
    strategy.lower = .ok config ↔
      (∀ leaf ∈ strategy.leaves, ∀ error, ¬leaf.Unlowerable error) ∧
        strategy.Determines config := by
  rw [lower_eq_ok_iff]
  simp only [Leaf.fault_eq_none_iff]
  refine and_congr_right fun healthy => ⟨?_, ?_⟩
  · rintro rfl
    exact determines_configuration healthy
  · exact (determines_configuration healthy).unique

/-- Lowering fails exactly if the first action of some leaf has no counterpart, with the error of the
first such leaf. Otherwise it gives the one configuration that the reference determines. The numbers of
a strategy are finite. -/
theorem lower_matches_reference (strategy : Strategy) :
    ((∃ error, strategy.lower = .error error) ↔
      ∃ leaf ∈ strategy.leaves, ∃ error, leaf.Unlowerable error) ∧
    (∀ error, strategy.lower = .error error ↔
      ∃ before leaf after, strategy.leaves = before ++ leaf :: after ∧ leaf.Unlowerable error ∧
        ∀ earlier ∈ before, ∀ other, ¬earlier.Unlowerable other) ∧
    ∀ config, strategy.lower = .ok config ↔
      (∀ leaf ∈ strategy.leaves, ∀ error, ¬leaf.Unlowerable error) ∧
        strategy.Determines config := by
  refine ⟨⟨?faulty, ?fails⟩, fun _ => lower_eq_error_iff, fun _ => lower_eq_ok_iff_determines⟩
  case faulty =>
    rintro ⟨error, failed⟩
    obtain ⟨before, leaf, after, split, unlowerable, -⟩ := lower_eq_error_iff.mp failed
    exact ⟨leaf, by simp [split], error, unlowerable⟩
  case fails =>
    rintro ⟨leaf, member, error, unlowerable⟩
    cases outcome : strategy.lower with
    | error first => exact ⟨first, rfl⟩
    | ok config =>
        have healthy := (lower_eq_ok_iff_determines.mp outcome).1
        exact absurd unlowerable (healthy leaf member error)

end Strategy

end VolBacktest
