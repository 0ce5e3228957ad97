import VolBacktest.Json.Writer

/-!
# Diagnostics

What is reported to the caller: the phase that found a problem, a stable code, a message, and where
possible the path of the place it concerns.
-/

namespace VolBacktest

inductive Phase where
  | parse
  | validate
  | compile
deriving DecidableEq

def Phase.name : Phase → String
  | parse => "Parse"
  | validate => "Validate"
  | compile => "Compile"

structure Diagnostic where
  phase : Phase
  code : String
  message : String
  path : Option String
deriving DecidableEq

namespace Diagnostic

/-- One line of text. -/
def display (diagnostic : Diagnostic) : String :=
  let place := match diagnostic.path with
    | none => ""
    | some path => " (at '" ++ path ++ "')"
  "[" ++ diagnostic.phase.name ++ ":" ++ diagnostic.code ++ "] " ++ diagnostic.message ++ place

def json (diagnostic : Diagnostic) : Json :=
  .object [
    ("code", .string diagnostic.code),
    ("phase", .string diagnostic.phase.name),
    ("message", .string diagnostic.message),
    ("path", .ofOption .string diagnostic.path)]

end Diagnostic

end VolBacktest
