import VolBacktest.Backtest.Submission
import VolBacktest.Proofs.Compilation.Agreement

/-!
# What an engine is asked

A submission asks its engine once if the strategy compiles, and otherwise not at all. This is seen in
any monad: the submission of a strategy that compiles is one question to the engine and what becomes of
the answer, and that of any other strategy does not depend on the engine. An engine that keeps what it
is asked makes the questions, and how many there were, part of what a submission leaves behind.
-/

namespace VolBacktest

/-- The engine with these answers that keeps the requests it is asked, the latest last. -/
def Engine.recording (answer : BacktestRequest → Except String BacktestResult) :
    Engine (StateM (List BacktestRequest)) := fun request => do
  modify (· ++ [request])
  pure (answer request)

namespace Strategy

section AnyMonad

variable {m : Type → Type} [Monad m] {strategy : Strategy}

/-- The engine of a strategy that compiles is asked for its configuration. -/
theorem submitWith_of_compile {config : Config} (compiled : strategy.compile = .ok config)
    (engine : Engine m) (settings : BacktestSettings) (first last : Date) :
    strategy.submitWith engine settings first last =
      engine (.ofConfig config settings first last) >>= fun answer =>
        pure ⟨strategy.compileJournaled.events ++ [.submitted settings.name first last],
          answer.mapError .engine⟩ := by
  rw [compile] at compiled
  rw [submitWith]
  split
  next events error outcome =>
    rw [outcome] at compiled
    contradiction
  next events found outcome =>
    rw [outcome] at compiled
    rw [outcome, Except.ok.inj compiled]
    rfl

/-- The engine of any other strategy is not asked, whatever it is. -/
theorem submitWith_of_reported (reported : strategy.diagnostics ≠ []) (engine : Engine m)
    (settings : BacktestSettings) (first last : Date) :
    strategy.submitWith engine settings first last =
      pure ⟨strategy.compileJournaled.events,
        .error (.compile (.rejected strategy.diagnostics))⟩ := by
  have refused : strategy.compile = .error (.rejected strategy.diagnostics) := by
    rw [compile_eq, if_neg reported]
  rw [compile] at refused
  rw [submitWith]
  split
  next events error outcome =>
    rw [outcome] at refused
    rw [outcome, Except.error.inj refused]
  next events config outcome =>
    rw [outcome] at refused
    contradiction

end AnyMonad

/-- A strategy without violations is submitted by one request, for its configuration under the settings
and between the dates, and the outcome is what the engine answers: its result as it is, or its own
reason. Any other strategy is answered with its report, and the engine is not asked. The numbers of a
strategy are finite, and so are those that the engine answers with. -/
theorem submission_protocol (strategy : Strategy)
    (answer : BacktestRequest → Except String BacktestResult) (settings : BacktestSettings)
    (first last : Date) (asked : List BacktestRequest) :
    (strategy.diagnostics = [] → ∃ config request outcome,
      strategy.compile = .ok config ∧ request.config = config ∧
      request.name = settings.name ∧ request.tradeInMethod = settings.tradeInMethod ∧
      request.first = first ∧ request.last = last ∧
      (strategy.submitWith (.recording answer) settings first last).run asked =
        (⟨strategy.compileJournaled.events ++ [.submitted settings.name first last], outcome⟩,
          asked ++ [request]) ∧
      ((∃ result, answer request = .ok result ∧ outcome = .ok result) ∨
        ∃ reason, answer request = .error reason ∧ outcome = .error (.engine reason))) ∧
    (strategy.diagnostics ≠ [] →
      (strategy.submitWith (.recording answer) settings first last).run asked =
        (⟨strategy.compileJournaled.events,
          .error (.compile (.rejected strategy.diagnostics))⟩, asked)) ∧
    strategy.submit (.recording answer) first last =
      strategy.submitWith (.recording answer) ⟨"Flow Vol Backtest", .fixedRoll⟩ first last := by
  refine ⟨?accepted, ?reported, rfl⟩
  case accepted =>
    intro silent
    have compiled := compile_eq_ok silent
    let request := BacktestRequest.ofConfig strategy.configuration settings first last
    refine ⟨strategy.configuration, request, (answer request).mapError .engine, compiled, rfl, rfl,
      rfl, rfl, rfl, ?_, ?_⟩
    · rw [submitWith_of_compile compiled]
      rfl
    · cases answer request with
      | ok result => exact .inl ⟨result, rfl, rfl⟩
      | error reason => exact .inr ⟨reason, rfl, rfl⟩
  case reported =>
    intro reported
    rw [submitWith_of_reported reported]
    rfl

/-- An engine without capacity is asked once about the daily hedge, whose submission fails with the
engine's own words; about the weekly hedge it is not asked. -/
theorem submission_of_hedges :
    (dailyHedge.diagnostics = [] ∧ ∃ events request,
      request.config = dailyHedge.configuration ∧ request.name = "Flow Vol Backtest" ∧
      (dailyHedge.submit (.recording fun _ => .error "no capacity") .january .july).run [] =
        (⟨events, .error (.engine "no capacity")⟩, [request])) ∧
    (weeklyHedge.diagnostics ≠ [] ∧ ∃ events,
      (weeklyHedge.submit (.recording fun _ => .error "no capacity") .january .july).run [] =
        (⟨events, .error (.compile (.rejected weeklyHedge.diagnostics))⟩, [])) := by
  have silent : dailyHedge.diagnostics = [] := rfl
  have reported : weeklyHedge.diagnostics ≠ [] := by decide
  have daily := submission_protocol dailyHedge (fun _ => .error "no capacity") .default
    .january .july []
  have weekly := submission_protocol weeklyHedge (fun _ => .error "no capacity") .default
    .january .july []
  refine ⟨⟨silent, ?_⟩, ⟨reported, _, weekly.2.1 reported⟩⟩
  obtain ⟨config, request, outcome, compiled, ofConfig, named, -, -, -, run, answered⟩ :=
    daily.1 silent
  obtain ⟨result, answer, -⟩ | ⟨reason, answer, rfl⟩ := answered
  · contradiction
  · obtain rfl := Except.error.inj answer
    obtain rfl := (compile_eq_ok_iff.mp compiled).2
    exact ⟨_, request, ofConfig, named, run⟩

end Strategy

end VolBacktest
