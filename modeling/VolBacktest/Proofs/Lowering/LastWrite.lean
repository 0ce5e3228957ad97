import VolBacktest.Proofs.Folds
import VolBacktest.Proofs.Lowering.ClosedForm

/-!
# What the last writer leaves in a configuration

Triggers write the two series and nothing else; leaves write everything but the series. Each part of
a configuration is therefore decided by one traversal alone: a series by the last aggregate of its
side, the parameters of a position by the last leaf that enters one, the initial value by the last
leaf that enters one measured in net asset value, which may be an earlier leaf, and the hedge by the
last leaf that hedges.
-/

namespace VolBacktest

/-- What a trigger writes to the series of a side. -/
def Trigger.items (trigger : Trigger) (side : SignalSide) : Option (List SignalItem) :=
  trigger.signal.bind fun signal => if signal.side = side then some signal.items else none

/-- The parameters of a position as a configuration holds them. -/
abbrev Parameters :=
  Option (List Instrument) × Option String × Option Binary64 × Option QuantityType

def EnterAction.parameters (action : EnterAction) : Parameters :=
  (some action.instruments, action.duration, action.quantity, action.quantityType)

theorem EnterAction.parameters_inj {a b : EnterAction} (h : a.parameters = b.parameters) :
    a = b := by
  cases a
  cases b
  simpa [parameters] using h

/-- What a leaf writes to the initial value. -/
def Leaf.initialValue (leaf : Leaf) : Option Binary64 :=
  leaf.entry.bind fun entry =>
    if entry.quantityType = some .nav then some (entry.quantity.getD .zero) else none

theorem Leaf.initialValue_eq_none_iff {leaf : Leaf} :
    leaf.initialValue = none ↔
      ∀ entry, leaf.entry = some entry → entry.quantityType ≠ some .nav := by
  rw [initialValue]
  cases leaf.entry with
  | none => simp
  | some entry => by_cases nav : entry.quantityType = some .nav <;> simp [nav]

/-- What a leaf writes to the hedge. -/
def Leaf.hedge (leaf : Leaf) : Option DeltaHedge :=
  match leaf.action with
  | some (.hedge _) => leaf.hedgeFrequency.map DeltaHedge.mk
  | _ => none

namespace Config

def series (config : Config) : SignalSide → List SignalItem
  | .tradeIn => config.tradeIn
  | .tradeOut => config.tradeOut

def parameters (config : Config) : Parameters :=
  (config.instruments, config.rollFrequency, config.quantity, config.quantityType)

variable (config : Config)

theorem series_withSignal (signal : Signal) (side : SignalSide) :
    (config.withSignal signal).series side =
      if signal.side = side then signal.items else config.series side := by
  rw [withSignal]
  cases signal.side <;> cases side <;> rfl

theorem series_withTrigger (trigger : Trigger) (side : SignalSide) :
    (config.withTrigger trigger).series side =
      (trigger.items side).getD (config.series side) := by
  rw [withTrigger, Trigger.items]
  cases trigger.signal with
  | none => rfl
  | some signal =>
      by_cases same : signal.side = side <;> simp [series_withSignal, same]

/-- A signal only writes to the series. -/
theorem withSignal_cases (signal : Signal) :
    ∃ tradeIn tradeOut,
      config.withSignal signal = { config with tradeIn := tradeIn, tradeOut := tradeOut } := by
  unfold withSignal
  cases signal.side with
  | tradeIn => exact ⟨signal.items, config.tradeOut, rfl⟩
  | tradeOut => exact ⟨config.tradeIn, signal.items, rfl⟩

theorem withTrigger_cases (trigger : Trigger) :
    ∃ tradeIn tradeOut,
      config.withTrigger trigger = { config with tradeIn := tradeIn, tradeOut := tradeOut } := by
  rw [withTrigger]
  cases trigger.signal with
  | none => exact ⟨config.tradeIn, config.tradeOut, rfl⟩
  | some signal => exact config.withSignal_cases signal

theorem parameters_withTrigger (trigger : Trigger) :
    (config.withTrigger trigger).parameters = config.parameters := by
  obtain ⟨_, _, same⟩ := config.withTrigger_cases trigger
  rw [same]
  rfl

theorem initialValue_withTrigger (trigger : Trigger) :
    (config.withTrigger trigger).initialValue = config.initialValue := by
  obtain ⟨_, _, same⟩ := config.withTrigger_cases trigger
  rw [same]

theorem hedge_withTrigger (trigger : Trigger) :
    (config.withTrigger trigger).hedge = config.hedge := by
  obtain ⟨_, _, same⟩ := config.withTrigger_cases trigger
  rw [same]

/-- A leaf either enters a position or leaves the parameters of one alone. -/
theorem withLeaf_cases (leaf : Leaf) :
    (∃ entry, leaf.entry = some entry ∧ config.withLeaf leaf = config.withEntry entry) ∨
      (leaf.entry = none ∧
        ∃ hedge, config.withLeaf leaf = { config with hedge := hedge }) := by
  rw [withLeaf, Leaf.entry]
  cases leaf.action with
  | none => exact .inr ⟨rfl, config.hedge, rfl⟩
  | some action =>
      cases action with
      | enter entry => exact .inl ⟨entry, rfl, rfl⟩
      | exit => exact .inr ⟨rfl, config.hedge, rfl⟩
      | addTrade _ => exact .inr ⟨rfl, config.hedge, rfl⟩
      | rebalance _ => exact .inr ⟨rfl, config.hedge, rfl⟩
      | hedge _ =>
          cases leaf.hedgeFrequency with
          | none => exact .inr ⟨rfl, config.hedge, rfl⟩
          | some frequency => exact .inr ⟨rfl, some ⟨frequency⟩, rfl⟩

theorem series_withLeaf (leaf : Leaf) (side : SignalSide) :
    (config.withLeaf leaf).series side = config.series side := by
  obtain ⟨entry, -, same⟩ | ⟨-, hedge, same⟩ := config.withLeaf_cases leaf <;>
    rw [same] <;> cases side <;> rfl

theorem parameters_withLeaf (leaf : Leaf) :
    (config.withLeaf leaf).parameters =
      (leaf.entry.map EnterAction.parameters).getD config.parameters := by
  obtain ⟨entry, entered, same⟩ | ⟨silent, hedge, same⟩ := config.withLeaf_cases leaf
  · rw [same, entered]
    rfl
  · rw [same, silent]
    rfl

theorem initialValue_withLeaf (leaf : Leaf) :
    (config.withLeaf leaf).initialValue = leaf.initialValue.getD config.initialValue := by
  rw [Leaf.initialValue]
  obtain ⟨entry, entered, same⟩ | ⟨silent, hedge, same⟩ := config.withLeaf_cases leaf
  · rw [same, entered]
    by_cases nav : entry.quantityType = some .nav <;> simp [withEntry, nav]
  · rw [same, silent]
    rfl

/-- A hedge is never taken back. -/
theorem hedge_withLeaf (leaf : Leaf) :
    (config.withLeaf leaf).hedge = (leaf.hedge.map some).getD config.hedge := by
  rw [withLeaf, Leaf.hedge]
  cases leaf.action with
  | none => rfl
  | some action =>
      cases action with
      | enter _ => rfl
      | exit => rfl
      | addTrade _ => rfl
      | rebalance _ => rfl
      | hedge _ => cases leaf.hedgeFrequency <;> rfl

end Config

namespace Strategy

variable (strategy : Strategy)

/-- The position that is entered by the last leaf that enters any. -/
def lastEntry : Option EnterAction := strategy.leaves.reverse.findSome? Leaf.entry

/-- A series comes from the last aggregate of its side. -/
theorem series_configuration (side : SignalSide) :
    strategy.configuration.series side =
      (strategy.triggers.reverse.findSome? (Trigger.items · side)).getD [] := by
  rw [configuration]
  rw [observe_foldl_of_silent (Config.series · side)
      (fun config leaf => config.series_withLeaf leaf side),
    observe_foldl (Config.series · side)
      (fun config trigger => config.series_withTrigger trigger side)]
  cases side <;> rfl

/-- The parameters come from the last leaf that enters a position. -/
theorem parameters_configuration :
    strategy.configuration.parameters =
      (strategy.lastEntry.map EnterAction.parameters).getD (none, none, none, none) := by
  rw [configuration, lastEntry]
  rw [observe_foldl Config.parameters Config.parameters_withLeaf,
    observe_foldl_of_silent Config.parameters Config.parameters_withTrigger,
    List.map_findSome?]
  rfl

/-- Each parameter is that of the last position. -/
theorem parameter_configuration {α : Type} (view : Parameters → Option α)
    (absent : view (none, none, none, none) = none) :
    view strategy.configuration.parameters =
      strategy.lastEntry.bind fun entry => view entry.parameters := by
  rw [parameters_configuration]
  cases strategy.lastEntry with
  | none => exact absent
  | some entry => rfl

theorem instruments_configuration :
    strategy.configuration.instruments = strategy.lastEntry.map EnterAction.instruments := by
  rw [Option.map_eq_bind]
  exact strategy.parameter_configuration (·.1) rfl

theorem rollFrequency_configuration :
    strategy.configuration.rollFrequency = strategy.lastEntry.bind EnterAction.duration :=
  strategy.parameter_configuration (·.2.1) rfl

theorem quantity_configuration :
    strategy.configuration.quantity = strategy.lastEntry.bind EnterAction.quantity :=
  strategy.parameter_configuration (·.2.2.1) rfl

theorem quantityType_configuration :
    strategy.configuration.quantityType = strategy.lastEntry.bind EnterAction.quantityType :=
  strategy.parameter_configuration (·.2.2.2) rfl

/-- The initial value comes from the last leaf that enters a position by net asset value. -/
theorem initialValue_configuration :
    strategy.configuration.initialValue =
      (strategy.leaves.reverse.findSome? Leaf.initialValue).getD .zero := by
  rw [configuration]
  rw [observe_foldl Config.initialValue Config.initialValue_withLeaf,
    observe_foldl_of_silent Config.initialValue Config.initialValue_withTrigger]
  rfl

/-- The hedge comes from the last leaf that hedges. -/
theorem hedge_configuration :
    strategy.configuration.hedge = strategy.leaves.reverse.findSome? Leaf.hedge := by
  rw [configuration]
  rw [observe_foldl Config.hedge Config.hedge_withLeaf,
    observe_foldl_of_silent Config.hedge Config.hedge_withTrigger]
  change (strategy.leaves.reverse.findSome? (Option.map some ∘ Leaf.hedge)).getD none = _
  rw [← List.map_findSome?]
  cases strategy.leaves.reverse.findSome? Leaf.hedge <;> rfl

end Strategy

end VolBacktest
