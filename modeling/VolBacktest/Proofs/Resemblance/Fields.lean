import VolBacktest.Compilation

/-!
# Other free-form fields

`mapFields f` applies `f` to the free-form fields of every instrument in an action, in a trigger at
any depth, in a strategy or in a configuration, and keeps everything else, the kinds of the
instruments among it.
-/

namespace VolBacktest

/-- What an instrument has beside its kind. -/
abbrev FreeFields := SortedMap String Json

variable (f : FreeFields → FreeFields)

namespace Instrument

def mapFields (instrument : Instrument) : Instrument :=
  { instrument with fields := f instrument.fields }

@[simp] theorem kind_mapFields (instrument : Instrument) :
    (instrument.mapFields f).kind = instrument.kind := rfl

@[simp] theorem mapFields_id : mapFields id = id := rfl

end Instrument

/-! ### Actions -/

def EnterAction.mapFields (action : EnterAction) : EnterAction :=
  { action with instruments := action.instruments.map (Instrument.mapFields f) }

def AddTradeAction.mapFields (action : AddTradeAction) : AddTradeAction :=
  { action with instruments := action.instruments.map (Instrument.mapFields f) }

def RebalanceAction.mapFields (action : RebalanceAction) : RebalanceAction :=
  { action with instrument := action.instrument.mapFields f }

namespace Action

def mapFields : Action → Action
  | enter action => enter (action.mapFields f)
  | hedge action => hedge action
  | exit => exit
  | addTrade action => addTrade (action.mapFields f)
  | rebalance action => rebalance (action.mapFields f)

@[simp] theorem kind_mapFields (action : Action) : (action.mapFields f).kind = action.kind := by
  cases action <;> rfl

@[simp] theorem map_kind_mapFields (actions : List Action) :
    (actions.map (mapFields f)).map kind = actions.map kind := by
  rw [List.map_map]
  exact List.map_congr_left fun action _ => action.kind_mapFields f

@[simp] theorem mapFields_id : mapFields id = id := by
  funext action
  cases action with
  | enter _ => simp [mapFields, EnterAction.mapFields]
  | hedge _ => rfl
  | exit => rfl
  | addTrade _ => simp [mapFields, AddTradeAction.mapFields]
  | rebalance _ => rfl

@[simp] theorem map_mapFields_id (actions : List Action) :
    actions.map (mapFields id) = actions := by
  rw [mapFields_id, List.map_id]

end Action

/-! ### Triggers -/

def Guarded.mapFields {ρ : Type} (trigger : Guarded ρ) : Guarded ρ :=
  { trigger with actions := trigger.actions.map (Action.mapFields f) }

namespace Trigger

mutual

/-- The children of an aggregate are changed like the aggregate itself. -/
def mapFields : Trigger → Trigger
  | date t => date (t.mapFields f)
  | portfolio t => portfolio (t.mapFields f)
  | periodic t => periodic (t.mapFields f)
  | aggregate children actions =>
    aggregate (mapFieldsList children) (actions.map (Action.mapFields f))
  | market t => market (t.mapFields f)
  | risk t => risk (t.mapFields f)

def mapFieldsList : List Trigger → List Trigger
  | [] => []
  | trigger :: rest => trigger.mapFields :: mapFieldsList rest

end

@[simp] theorem mapFieldsList_eq_map (triggers : List Trigger) :
    mapFieldsList f triggers = triggers.map (mapFields f) := by
  induction triggers with
  | nil => rfl
  | cons trigger rest ih => rw [mapFieldsList, ih, List.map_cons]

@[simp] theorem kind_mapFields (trigger : Trigger) : (trigger.mapFields f).kind = trigger.kind := by
  cases trigger <;> rfl

@[simp] theorem actions_mapFields (trigger : Trigger) :
    (trigger.mapFields f).actions = trigger.actions.map (Action.mapFields f) := by
  cases trigger <;> rfl

@[simp] theorem frequency_mapFields (trigger : Trigger) :
    (trigger.mapFields f).frequency = trigger.frequency := by
  cases trigger <;> rfl

end Trigger

/-! ### Strategies and configurations -/

def Strategy.mapFields (strategy : Strategy) : Strategy where
  initialPortfolio := strategy.initialPortfolio.map (Instrument.mapFields f)
  triggers := strategy.triggers.map (Trigger.mapFields f)

namespace Config

def mapFields (config : Config) : Config :=
  { config with instruments := config.instruments.map (List.map (Instrument.mapFields f)) }

@[simp] theorem mapFields_id : mapFields id = id := by
  funext config
  simp [mapFields]

end Config

end VolBacktest
