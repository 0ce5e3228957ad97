import VolBacktest.Diagnostic
import VolBacktest.Journal
import VolBacktest.Strategy.Leaf
import VolBacktest.Text.Quoted

/-!
# Lowering a strategy to a configuration

First each aggregate among the triggers gives its signal, then the first action of each leaf sets
its parameters; a later signal of the same side and a later enter action replace the earlier one.
The own actions of an aggregate and all actions of a leaf but the first are not looked at.

Lowering does not judge. It can be applied to any strategy and fails only at an action that has no
counterpart in a configuration.
-/

namespace VolBacktest

/-- Why a strategy has no configuration. -/
inductive CompileError where
  /-- The strategy breaks rules of the engine. -/
  | rejected (diagnostics : List Diagnostic)
  /-- A hedge whose trigger has no frequency, or none that the engine has a label for. -/
  | unmappedHedgeFrequency (frequency : Option String) (path : String)
  | unsupportedAction (kind path : String)
deriving DecidableEq

namespace CompileError

def display : CompileError → String
  | rejected diagnostics =>
    "strategy rejected with " ++ toString diagnostics.length ++ " violation(s): " ++
      String.intercalate "; " (diagnostics.map Diagnostic.message)
  | unmappedHedgeFrequency frequency path =>
    "unrecognised hedge frequency " ++ Text.quotedOption frequency ++ " (at '" ++ path ++ "')"
  | unsupportedAction kind path =>
    "unsupported action type '" ++ kind ++ "' (at '" ++ path ++ "')"

/-- The error as a report. -/
def diagnostics : CompileError → List Diagnostic
  | rejected diagnostics => diagnostics
  | unmappedHedgeFrequency frequency path =>
    [⟨.compile, "C001", "Unrecognised hedge frequency " ++ Text.quotedOption frequency, some path⟩]
  | unsupportedAction kind path =>
    [⟨.compile, "C002", "Unsupported action type '" ++ kind ++ "'", some path⟩]

end CompileError

namespace Config

/-- Takes over the signal of a trigger, if it is an aggregate that has one. -/
def lowerSignal (config : Config) (trigger : Trigger) (index : Nat) :
    Journaled CompileError Config :=
  match trigger with
  | .aggregate children _ =>
    match Signal.ofChildren children with
    | some signal => do
      .record (.signal (.trigger index) signal.items.length signal.side)
      pure (config.withSignal signal)
    | none => pure config
  | _ => pure config

/-- Takes over the parameters of an action of a leaf. -/
def lowerAction (config : Config) (leaf : Leaf) : Action → Journaled CompileError Config
  | .enter action => pure (config.withEntry action)
  | .hedge _ =>
    match leaf.trigger.frequency.bind HedgeFrequency.ofCode with
    | some frequency => do
      .record (.hedge leaf.location frequency)
      pure (config.withHedge frequency)
    | none => .fail (.unmappedHedgeFrequency leaf.trigger.frequency leaf.location.path)
  | .exit => pure config
  | .addTrade _ => .fail (.unsupportedAction ActionKind.addTrade.name leaf.location.path)
  | .rebalance _ => .fail (.unsupportedAction ActionKind.rebalance.name leaf.location.path)

def lowerLeaf (config : Config) (leaf : Leaf) : Journaled CompileError Config :=
  match leaf.trigger.actions with
  | [] => pure config
  | action :: _ => config.lowerAction leaf action

end Config

namespace Strategy

def lowerJournaled (strategy : Strategy) : Journaled CompileError Config := do
  let config ← strategy.triggers.zipIdx.foldlM
    (fun config (trigger, index) => config.lowerSignal trigger index) Config.default
  strategy.leaves.foldlM Config.lowerLeaf config

/-- The configuration of a strategy, whether or not the engine's rules are kept. -/
def lower (strategy : Strategy) : Except CompileError Config := strategy.lowerJournaled.result

end Strategy

end VolBacktest
