/-!
# Faults of JSON text

The ways in which text can fail to be readable JSON, whatever is expected of its contents.
-/

namespace VolBacktest.Json

inductive Fault where
  | endInList
  | endInObject
  | endInString
  | endInValue
  | expectedColon
  | expectedListEnd
  | expectedObjectEnd
  /-- `null`, `true` or `false` begun but not finished. -/
  | expectedWord
  | expectedValue
  | badEscape
  | badNumber
  | numberRange
  | controlCharacter
  | keyNotString
  /-- One half of a pair of surrogates where the pair cannot be completed. -/
  | loneSurrogate
  | trailingComma
  | trailingText
  /-- The first half of a pair of surrogates that no second escape follows. -/
  | endOfEscape
  | tooDeep
deriving DecidableEq

namespace Fault

def message : Fault → String
  | endInList => "EOF while parsing a list"
  | endInObject => "EOF while parsing an object"
  | endInString => "EOF while parsing a string"
  | endInValue => "EOF while parsing a value"
  | expectedColon => "expected `:`"
  | expectedListEnd => "expected `,` or `]`"
  | expectedObjectEnd => "expected `,` or `\x7d`"
  | expectedWord => "expected ident"
  | expectedValue => "expected value"
  | badEscape => "invalid escape"
  | badNumber => "invalid number"
  | numberRange => "number out of range"
  | controlCharacter => "control character (\\u0000-\\u001F) found while parsing a string"
  | keyNotString => "key must be a string"
  | loneSurrogate => "lone leading surrogate in hex escape"
  | trailingComma => "trailing comma"
  | trailingText => "trailing characters"
  | endOfEscape => "unexpected end of hex escape"
  | tooDeep => "recursion limit exceeded"

end Fault

/-- How closely text is looked at. What no reader asks for is only skipped: its grammar is checked,
but not whether its numbers and escapes denote anything. -/
inductive Care where
  | reading
  | skipping
deriving DecidableEq

end VolBacktest.Json
