import VolBacktest.Backtest.Request
import VolBacktest.Backtest.Result
import VolBacktest.Compilation

/-!
# Submitting a strategy to an engine

The engine prices and steps a compiled backtest and is not part of this library. It may be anything
that answers a request with a result or with a reason for failing, in any monad, so that what it is
asked, and how often, can be observed. A strategy that does not compile never reaches it.
-/

namespace VolBacktest

/-- Anything that runs requests; a failure is told as a text. -/
abbrev Engine (m : Type → Type) := BacktestRequest → m (Except String BacktestResult)

inductive BacktestError where
  | compile (error : CompileError)
  | engine (reason : String)
deriving DecidableEq

def BacktestError.display : BacktestError → String
  | compile error => error.display
  | engine reason => "execution engine failed: " ++ reason

variable {m : Type → Type} [Monad m]

/-- Compiles the strategy and has the engine run it between the two dates. -/
def Strategy.submitWith (strategy : Strategy) (engine : Engine m) (settings : BacktestSettings)
    (first last : Date) : m (Journaled BacktestError BacktestResult) :=
  match strategy.compileJournaled with
  | ⟨events, .error error⟩ => pure ⟨events, .error (.compile error)⟩
  | ⟨events, .ok config⟩ => do
    let request := BacktestRequest.ofConfig config settings first last
    let answer ← engine request
    pure ⟨events ++ [.submitted request.name first last], answer.mapError .engine⟩

/-- The same under the default settings. -/
def Strategy.submit (strategy : Strategy) (engine : Engine m) (first last : Date) :
    m (Journaled BacktestError BacktestResult) :=
  strategy.submitWith engine .default first last

end VolBacktest
