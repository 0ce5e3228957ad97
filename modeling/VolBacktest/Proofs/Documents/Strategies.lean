import VolBacktest.Proofs.Documents.Triggers
import VolBacktest.Strategy.Document

/-!
# Strategies read back

The text of a strategy that could be read is read as the same strategy, however the first text was
written: with lists for structures, with parts left out, in any order of members. What was left out is
written, and the second text is the one that is written ever after.
-/

namespace VolBacktest.Strategy

open Json

/-- The triggers are a list, so there is room for the initial positions, even if they were left out. -/
theorem reader_roundTrips : reader.RoundTrips json := by
  intro mode budget tree strategy read
  obtain ⟨room, source, rfl, fields⟩ := Fields.reader_ok read
  obtain ⟨_, triggers, one, readTriggers, rfl⟩ := Fields.seq_ok fields
  obtain ⟨portfolio, readPortfolio, rfl⟩ := Fields.map_ok one
  have positive : 0 < room := by
    obtain ⟨tree, items⟩ := Fields.required_ok readTriggers
    obtain ⟨rest, rfl, -⟩ := Reader.list_ok items
    exact rest.succ_pos
  have first := Fields.Encodes.defaulted Instrument.list_roundTrips
    (Reader.list_restores_nil Instrument.reader positive) readPortfolio
  have second := Fields.Encodes.required (Reader.list_roundTrips Trigger.reader_roundTrips)
    readTriggers
  exact ((first.map _).seq second).restores _ (by simp)

theorem parse_eq_ok {text : String} {strategy : Strategy} :
    parse text = .ok strategy ↔ ofText text = .ok strategy := by
  rw [parse]
  split
  next found => rw [found, Except.ok.injEq, Except.ok.injEq]
  next found => rw [found]; exact ⟨nofun, nofun⟩

/-- Reading, writing and reading again changes nothing, and neither does writing once more. This rests on
the assumption `Number.ReadsBack` for the levels and quantities. -/
theorem parse_text_of_parse {text : String} {strategy : Strategy}
    (accepted : parse text = .ok strategy) :
    ∃ again, parse strategy.text = .ok again ∧ again = strategy ∧ again.text = strategy.text := by
  have restored := reader_roundTrips.restores (parse_eq_ok.mp accepted)
  exact ⟨strategy, parse_eq_ok.mpr (read_text restored), rfl, rfl⟩

/-- An instrument of an unknown kind, a structure written as a list, and actions left out. -/
def terseText : String :=
  "\x7b\"initial_portfolio\":[\x7b\"type\":\"Swaption\",\"n\":[1]\x7d]," ++
    "\"triggers\":[\x7b\"type\":\"PeriodicTrigger\",\"trigger_requirements\":[\"1m\"]\x7d]\x7d"

def terse : Strategy where
  initialPortfolio :=
    [(Instrument.ofKind (.other "Swaption")).withField "n" (.array [.number (.integer 1)])]
  triggers := [.periodic ⟨"1m", []⟩]

theorem parse_terseText : parse terseText = .ok terse := toOption_eq_some.mp (by decide +kernel)

theorem parse_text_terse : parse terseText = .ok terse ∧
    ∃ again, parse terse.text = .ok again ∧ again = terse ∧ again.text = terse.text :=
  ⟨parse_terseText, parse_text_of_parse parse_terseText⟩

end VolBacktest.Strategy
