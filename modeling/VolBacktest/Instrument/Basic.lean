import VolBacktest.Json.Value

/-!
# Instruments

Of an instrument only the kind matters here. Everything else about it is free-form and is handed
on to the engine as it is. Kinds beyond the known ones are kept under their own tag, so that a
strategy that mentions them can still be read, judged and written.
-/

namespace VolBacktest

inductive InstrumentKind where
  | eqOption
  | eqVarianceSwap
  | eqForward
  | irSwap
  | fxOption
  | other (tag : String)
deriving DecidableEq

namespace InstrumentKind

def tag : InstrumentKind → String
  | eqOption => "EqOption"
  | eqVarianceSwap => "EqVarianceSwap"
  | eqForward => "EqForward"
  | irSwap => "IRSwap"
  | fxOption => "FXOption"
  | other tag => tag

def ofTag (tag : String) : InstrumentKind :=
  if tag = "EqOption" then eqOption
  else if tag = "EqVarianceSwap" then eqVarianceSwap
  else if tag = "EqForward" then eqForward
  else if tag = "IRSwap" then irSwap
  else if tag = "FXOption" then fxOption
  else other tag

@[simp] theorem tag_ofTag (t : String) : (ofTag t).tag = t := by
  unfold ofTag
  repeat' split
  all_goals simp_all [tag]

/-- The instruments that an equity-volatility position is made of. -/
def isEquityVol : InstrumentKind → Bool
  | eqOption | eqVarianceSwap => true
  | _ => false

/-- Whether the kind is none of the known ones. -/
def isOther : InstrumentKind → Bool
  | other _ => true
  | _ => false

end InstrumentKind

/-- A tradable instrument. -/
structure Instrument where
  kind : InstrumentKind
  fields : SortedMap String Json
deriving DecidableEq

namespace Instrument

def ofKind (kind : InstrumentKind) : Instrument := ⟨kind, .empty⟩

/-- The instrument with the field set, whatever it was before. -/
def withField (instrument : Instrument) (key : String) (value : Json) : Instrument :=
  { instrument with fields := instrument.fields.insert key value }

@[simp] theorem kind_withField (instrument : Instrument) (key : String) (value : Json) :
    (instrument.withField key value).kind = instrument.kind := rfl

end Instrument

end VolBacktest
