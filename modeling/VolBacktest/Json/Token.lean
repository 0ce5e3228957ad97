import VolBacktest.Json.Literal
import VolBacktest.Json.Numeral

/-!
# JSON tokens

Text is first cut into tokens. Cutting stops at the first token that is broken whichever way it is
looked at; a broken token keeps what was wrong, because the fault that is reported depends on
whether the value was read or skipped.
-/

namespace VolBacktest.Json

inductive Bracket where
  | square
  | curly
deriving DecidableEq

inductive Scalar where
  | null
  | bool (value : Bool)
  | number (value : Numeral)
  | string (value : Literal)

/-- Why a value is missing or incomplete. `ended` tells that the text ended there. -/
inductive Break where
  /-- The text ends where a value is due. -/
  | endOfText
  /-- A character that begins no value. -/
  | stray
  /-- One of the three words, not finished; `isNull` if it is the word `null`. -/
  | word (isNull ended : Bool)
  | numeral (ended : Bool)
  /-- A string that does not close, with its fault when read and when skipped. -/
  | literal (read skipped : Fault)
  /-- No colon after a key, so no value. -/
  | noColon (ended : Bool)

namespace Break

def fault : Break → Care → Fault
  | endOfText, _ => .endInValue
  | stray, _ => .expectedValue
  | word _ ended, _ => if ended then .endInValue else .expectedWord
  | numeral ended, .reading => if ended then .endInValue else .badNumber
  | numeral _, .skipping => .badNumber
  | literal read _, .reading => read
  | literal _ skipped, .skipping => skipped
  | noColon ended, _ => if ended then .endInObject else .expectedColon

end Break

inductive Token where
  | opening (bracket : Bracket)
  | closing (bracket : Bracket)
  | comma
  | colon
  | scalar (value : Scalar)
  | broken (cause : Break)

namespace Token

/-- The white space between tokens. -/
def isSpace (c : Char) : Bool := c == ' ' || c == '\n' || c == '\t' || c == '\r'

/-- What follows the rest of a word. The error tells whether the text ended instead. -/
def expectWord : List Char → List Char → Except Bool (List Char)
  | [], rest => .ok rest
  | _ :: _, [] => .error true
  | expected :: more, c :: cs => if c = expected then expectWord more cs else .error false

def scanWord (word : List Char) (value : Scalar) (isNull : Bool) (cs : List Char) :
    Token × List Char :=
  match expectWord word cs with
  | .ok rest => (scalar value, rest)
  | .error ended => (broken (.word isNull ended), [])

def scanNumeral (cs : List Char) : Token × List Char :=
  match Numeral.scan cs with
  | .ok (n, rest) => (scalar (.number n), rest)
  | .error ended => (broken (.numeral ended), [])

/-- The literal whose opening quotation mark has been passed. -/
def scanLiteral (cs : List Char) : Token × List Char :=
  let scanned := Literal.scan cs
  let decoded := (Literal.decode scanned.ending scanned.pieces).map String.ofList
  match scanned.ending, decoded with
  | .closed, text => (scalar (.string text), scanned.rest)
  | ending, .error fault => (broken (.literal fault ending.fault), [])
  | ending, .ok _ => (broken (.literal ending.fault ending.fault), [])

/-- The token that begins with the character `c`, and the text after it. -/
def scan (c : Char) (cs : List Char) : Token × List Char :=
  match c with
  | '[' => (opening .square, cs)
  | ']' => (closing .square, cs)
  | '\x7b' => (opening .curly, cs)
  | '\x7d' => (closing .curly, cs)
  | ',' => (comma, cs)
  | ':' => (colon, cs)
  | '"' => scanLiteral cs
  | 'n' => scanWord ['u', 'l', 'l'] .null true cs
  | 't' => scanWord ['r', 'u', 'e'] (.bool true) false cs
  | 'f' => scanWord ['a', 'l', 's', 'e'] (.bool false) false cs
  | c => if c = '-' ∨ c.isDigit then scanNumeral (c :: cs) else (broken .stray, [])

/-- The tokens of a text, of which at most the first `limit` characters begin one. -/
def sequence : (limit : Nat) → List Char → List Token
  | 0, _ => []
  | _, [] => []
  | limit + 1, c :: cs =>
    if isSpace c then sequence limit cs
    else
      let (token, rest) := scan c cs
      token :: sequence limit rest

/-- The tokens of a text, up to and including the first broken one. -/
def ofText (text : List Char) : List Token := sequence text.length text

end Token

end VolBacktest.Json
