import VolBacktest.Trigger.Signal

/-!
# Compiled configurations

The flat record of parameters that the engine runs on. What no trigger of the strategy sets keeps
its default.
-/

namespace VolBacktest

/-- How often the engine hedges. -/
inductive HedgeFrequency where
  | daily
deriving DecidableEq

namespace HedgeFrequency

def label : HedgeFrequency → String
  | daily => "Daily"

/-- The frequency that the code of a periodic trigger stands for. -/
def ofCode (code : String) : Option HedgeFrequency :=
  if code = businessDay then some daily else none

end HedgeFrequency

structure DeltaHedge where
  frequency : HedgeFrequency
deriving DecidableEq

structure Config where
  /-- The instruments that are rolled. -/
  instruments : Option (List Instrument)
  rollFrequency : Option String
  quantity : Option Binary64
  quantityType : Option QuantityType
  /-- When positions are opened, as long as there are none. -/
  tradeIn : List SignalItem
  /-- When open positions are closed. -/
  tradeOut : List SignalItem
  hedge : Option DeltaHedge
  /-- The quantity, if it is measured in net asset value, and zero otherwise. -/
  initialValue : Binary64
deriving DecidableEq

namespace Config

def default : Config where
  instruments := none
  rollFrequency := none
  quantity := none
  quantityType := none
  tradeIn := []
  tradeOut := []
  hedge := none
  initialValue := .zero

instance : Inhabited Config := ⟨default⟩

/-- A signal replaces the series of its side. -/
def withSignal (config : Config) (signal : Signal) : Config :=
  match signal.side with
  | .tradeIn => { config with tradeIn := signal.items }
  | .tradeOut => { config with tradeOut := signal.items }

/-- An enter action sets what is traded and how much of it. The initial value is left alone unless
the size is measured in net asset value. -/
def withEntry (config : Config) (action : EnterAction) : Config :=
  { config with
    instruments := some action.instruments
    rollFrequency := action.duration
    quantity := action.quantity
    quantityType := action.quantityType
    initialValue :=
      if action.quantityType = some .nav then action.quantity.getD .zero else config.initialValue }

def withHedge (config : Config) (frequency : HedgeFrequency) : Config :=
  { config with hedge := some ⟨frequency⟩ }

end Config

end VolBacktest
