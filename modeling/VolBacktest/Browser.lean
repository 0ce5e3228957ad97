import VolBacktest.Compilation
import VolBacktest.Config.Document
import VolBacktest.Strategy.Document

/-!
# Entry points for a browser

The same services on the text of a strategy. Text that holds no strategy gives a report like a
strategy that breaks rules does.

A page is handed values of the browser. They are made of documents by a `Conversion`, which is not part
of the engine and may refuse a document: a browser need not have a number for every integer. What is
refused becomes null.
-/

namespace VolBacktest

namespace Browser

/-- The report on a text, which is empty exactly if the engine accepts the strategy. -/
def validate (text : String) : List Diagnostic :=
  match Strategy.parse text with
  | .error diagnostics => diagnostics
  | .ok strategy => strategy.diagnostics

def supports (text : String) : Bool := (validate text).isEmpty

/-- What compiling a text leads to. -/
inductive Compiled where
  | success (config : Config)
  | errors (diagnostics : List Diagnostic)
deriving DecidableEq

def compile (text : String) : Compiled :=
  match Strategy.parse text with
  | .error diagnostics => .errors diagnostics
  | .ok strategy =>
    match strategy.compile with
    | .ok config => .success config
    | .error error => .errors error.diagnostics

/-- The document that is handed over for conversion: the status, and what it is about beside it. -/
def Compiled.json : Compiled → Json
  | success config => .object [("status", .string "success"), ("config", config.json)]
  | errors diagnostics =>
    .object [("status", .string "errors"), ("errors", .array (diagnostics.map Diagnostic.json))]

/-! ### Answers to a page -/

/-- How documents become values of a browser. -/
structure Conversion (Value : Type) where
  null : Value
  /-- The value of a document, unless the document is refused. -/
  convert : Json → Option Value

namespace Conversion

variable {Value : Type} (conversion : Conversion Value)

/-- The value of a document, and null for one that is refused. -/
def answer (document : Json) : Value := (conversion.convert document).getD conversion.null

/-- The report on a text as it is handed to a page. -/
def validate (text : String) : Value :=
  conversion.answer (.array ((Browser.validate text).map Diagnostic.json))

/-- The outcome of compiling a text as it is handed to a page. -/
def compile (text : String) : Value := conversion.answer (Browser.compile text).json

end Conversion

end Browser

end VolBacktest
