import VolBacktest.Diagnostic
import VolBacktest.Strategy.Basic
import VolBacktest.Trigger.Document

/-!
# Strategies in documents

How a strategy is written to a text and read from one. The initial positions may be left out.
-/

namespace VolBacktest

open Json

/-- The report of a text that holds no strategy. A parser that keeps track of its place in the text ends
the message with the line and the column; this one does not, so they are left out. -/
def Diagnostic.unreadable (error : Json.ReadError) : Diagnostic where
  phase := .parse
  code := "P001"
  message := "Failed to parse strategy JSON: " ++ error.message
  path := none

namespace Strategy

def json (strategy : Strategy) : Json :=
  .object [
    ("initial_portfolio", .array (strategy.initialPortfolio.map Instrument.json)),
    ("triggers", .array (strategy.triggers.map Trigger.json))]

def text (strategy : Strategy) : String := strategy.json.text

def reader : Reader Strategy :=
  (Strategy.mk
    <$> Fields.defaulted "initial_portfolio" (Reader.list Instrument.reader) []
    <*> .required "triggers" (Reader.list Trigger.reader)).reader "Strategy"

def ofText (text : String) : Read Strategy := Json.read reader text

/-- The strategy that a text holds, or the report that it holds none. -/
def parse (text : String) : Except (List Diagnostic) Strategy :=
  match ofText text with
  | .ok strategy => .ok strategy
  | .error error => .error [.unreadable error]

end Strategy

end VolBacktest
