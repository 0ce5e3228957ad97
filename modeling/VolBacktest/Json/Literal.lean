import VolBacktest.Json.Fault

/-!
# JSON string literals

A literal is scanned into pieces up to its closing quotation mark, and the pieces are then decoded.
Only decoding pairs the escaped halves of characters beyond the basic plane, so a literal that is
merely skipped may hold halves that do not pair.
-/

namespace VolBacktest.Json

namespace Literal

/-- A character, as itself or by a short escape, or a UTF-16 unit given by its number. -/
inductive Piece where
  | char (c : Char)
  | unit (code : Nat)
deriving DecidableEq

/-- What ends the pieces of a literal. -/
inductive Ending where
  | closed
  | endOfText
  | controlCharacter
  /-- A backslash before a character that it does not escape. -/
  | unknownEscape
  /-- `\u` without four hexadecimal digits. -/
  | badHex
deriving DecidableEq

structure Scanned where
  pieces : List Piece
  ending : Ending
  rest : List Char

def Scanned.cons (piece : Piece) (scanned : Scanned) : Scanned :=
  { scanned with pieces := piece :: scanned.pieces }

def hexDigit? (c : Char) : Option Nat :=
  if c.isDigit then some (c.toNat - '0'.toNat)
  else if 'a' ≤ c ∧ c ≤ 'f' then some (c.toNat - 'a'.toNat + 10)
  else if 'A' ≤ c ∧ c ≤ 'F' then some (c.toNat - 'A'.toNat + 10)
  else none

def hexUnit? (a b c d : Char) : Option Nat := do
  let a ← hexDigit? a
  let b ← hexDigit? b
  let c ← hexDigit? c
  let d ← hexDigit? d
  some (((a * 16 + b) * 16 + c) * 16 + d)

/-- The character that a backslash and `c` stand for. -/
def shortEscape? (c : Char) : Option Char :=
  match c with
  | '"' => some '"'
  | '\\' => some '\\'
  | '/' => some '/'
  | 'b' => some '\x08'
  | 'f' => some '\x0c'
  | 'n' => some '\n'
  | 'r' => some '\r'
  | 't' => some '\t'
  | _ => none

/-- What is wrong with the digits of a unit: the text has to hold at least four more bytes. -/
def unitEnding (cs : List Char) : Ending :=
  if (String.ofList cs).utf8ByteSize < 4 then .endOfText else .badHex

/-- The literal whose opening quotation mark has been passed. -/
def scan : List Char → Scanned
  | [] => ⟨[], .endOfText, []⟩
  | '"' :: rest => ⟨[], .closed, rest⟩
  | ['\\'] => ⟨[], .endOfText, []⟩
  | '\\' :: 'u' :: a :: b :: c :: d :: rest =>
    match hexUnit? a b c d with
    | some code => (scan rest).cons (.unit code)
    | none => ⟨[], .badHex, []⟩
  | '\\' :: 'u' :: few => ⟨[], unitEnding few, []⟩
  | '\\' :: c :: rest =>
    match shortEscape? c with
    | some escaped => (scan rest).cons (.char escaped)
    | none => ⟨[], .unknownEscape, []⟩
  | c :: rest =>
    if c < ' ' then ⟨[], .controlCharacter, []⟩ else (scan rest).cons (.char c)

/-- The fault of a literal that does not close. -/
def Ending.fault : Ending → Fault
  | .closed | .endOfText => .endInString
  | .controlCharacter => .controlCharacter
  | .unknownEscape | .badHex => .badEscape

def isLeadingHalf (code : Nat) : Bool := 0xD800 ≤ code && code ≤ 0xDBFF
def isTrailingHalf (code : Nat) : Bool := 0xDC00 ≤ code && code ≤ 0xDFFF

/-- The character beyond the basic plane that two halves make up. -/
def pairedCode (leading trailing : Nat) : Nat :=
  0x10000 + (leading - 0xD800) * 0x400 + (trailing - 0xDC00)

/-- The fault at the end of the pieces right after a leading half: only the escape of another unit
may follow. -/
def Ending.faultAfterHalf : Ending → Fault
  | .endOfText => .endInString
  | .badHex => .badEscape
  | .closed | .controlCharacter | .unknownEscape => .endOfEscape

/-- The characters of a literal, of which the first fault is reported. -/
def decode (ending : Ending) : List Piece → Except Fault (List Char)
  | [] => if ending = .closed then .ok [] else .error ending.fault
  | .char c :: rest => (decode ending rest).map (c :: ·)
  | .unit code :: rest =>
    if isTrailingHalf code then .error .loneSurrogate
    else if isLeadingHalf code then
      match rest with
      | .unit next :: more =>
        if isTrailingHalf next then
          (decode ending more).map (Char.ofNat (pairedCode code next) :: ·)
        else .error .loneSurrogate
      | .char _ :: _ => .error .endOfEscape
      | [] => .error ending.faultAfterHalf
    else (decode ending rest).map (Char.ofNat code :: ·)

end Literal

/-- A literal that closes: the text it denotes, or why it denotes none. -/
abbrev Literal := Except Fault String

end VolBacktest.Json
