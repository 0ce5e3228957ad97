import VolBacktest.Trigger.Basic

/-!
# Strategies

A strategy is a list of triggers, together with the positions held before the first of them fires.
-/

namespace VolBacktest

/-- All levels and quantities are finite, see `Binary64`. No text that a strategy is read from holds other
numbers. -/
structure Strategy where
  initialPortfolio : List Instrument
  triggers : List Trigger
deriving DecidableEq

namespace Strategy

def empty : Strategy := ⟨[], []⟩

instance : Inhabited Strategy := ⟨empty⟩

end Strategy

end VolBacktest
