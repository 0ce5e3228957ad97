import VolBacktest.Lowering
import VolBacktest.Rules.Leaf

/-!
# Compiling a strategy

A strategy that keeps the engine's rules is lowered to its configuration. For any other the report
of its violations is all there is: no part of a configuration is made.
-/

namespace VolBacktest.Strategy

def compileJournaled (strategy : Strategy) : Journaled CompileError Config := do
  let violations := strategy.violations
  .record (.validated strategy.triggers.length violations.length)
  if violations.isEmpty then
    let config ← strategy.lowerJournaled
    .record (.compiled config.tradeIn.length config.tradeOut.length config.hedge.isSome)
    pure config
  else
    .record (.refused violations.length)
    .fail (.rejected (violations.map Violation.diagnostic))

def compile (strategy : Strategy) : Except CompileError Config := strategy.compileJournaled.result

end VolBacktest.Strategy
