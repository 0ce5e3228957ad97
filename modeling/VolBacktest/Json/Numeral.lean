import VolBacktest.Json.Fault
import VolBacktest.Json.Value

/-!
# JSON numerals

A numeral is kept as the decimal it spells out. Which number that is, and whether there is one, is
asked only of numerals that are read: an integer that fits into 64 bits stays an integer, everything
else is the nearest binary64 number. The integer `-0` is the negative zero.
-/

namespace VolBacktest.Json

/-- The decimal `± significand * 10 ^ exponent`. -/
structure Numeral where
  negative : Bool
  significand : Nat
  exponent : Int
  /-- Neither a point nor an exponent was written. -/
  integral : Bool
deriving DecidableEq

namespace Numeral

/-- The leading digits and what follows them. -/
def splitDigits (cs : List Char) : List Char × List Char :=
  (cs.takeWhile Char.isDigit, cs.dropWhile Char.isDigit)

/-- Digits that must be there. The error tells whether the text ended instead. -/
def scanDigits (cs : List Char) : Except Bool (List Char × List Char) :=
  let (digits, rest) := splitDigits cs
  if digits.isEmpty then .error rest.isEmpty else .ok (digits, rest)

/-- The digits before the point: no zero stands before another digit. -/
def scanWhole (cs : List Char) : Except Bool (List Char × List Char) :=
  match scanDigits cs with
  | .ok ('0' :: _ :: _, _) => .error false
  | result => result

/-- The digits after the point, if there is one. -/
def scanFraction (cs : List Char) : Except Bool (Option (List Char) × List Char) :=
  match cs with
  | '.' :: rest => (scanDigits rest).map fun (digits, rest) => (some digits, rest)
  | rest => .ok (none, rest)

def scanSignedExponent (cs : List Char) : Except Bool (Int × List Char) :=
  match cs with
  | '-' :: rest => (scanDigits rest).map fun (ds, rest) => (-(Nat.ofDigitChars 10 ds 0 : Int), rest)
  | '+' :: rest => (scanDigits rest).map fun (ds, rest) => ((Nat.ofDigitChars 10 ds 0 : Int), rest)
  | rest => (scanDigits rest).map fun (ds, rest) => ((Nat.ofDigitChars 10 ds 0 : Int), rest)

/-- The exponent, if there is one. -/
def scanExponent (cs : List Char) : Except Bool (Option Int × List Char) :=
  match cs with
  | 'e' :: rest | 'E' :: rest => (scanSignedExponent rest).map fun (n, rest) => (some n, rest)
  | rest => .ok (none, rest)

/-- A numeral without its sign. -/
def scanUnsigned (negative : Bool) (cs : List Char) : Except Bool (Numeral × List Char) := do
  let (whole, rest) ← scanWhole cs
  let (fraction, rest) ← scanFraction rest
  let (exponent, rest) ← scanExponent rest
  let places := fraction.getD []
  .ok (
    { negative := negative
      significand := Nat.ofDigitChars 10 (whole ++ places) 0
      exponent := exponent.getD 0 - (places.length : Int)
      integral := fraction.isNone && exponent.isNone },
    rest)

/-- The numeral at the beginning of the text. -/
def scan (cs : List Char) : Except Bool (Numeral × List Char) :=
  match cs with
  | '-' :: rest => scanUnsigned true rest
  | rest => scanUnsigned false rest

/-- The nearest binary64 number. Readers that scale the significand in binary64 arithmetic answer a
neighbour of it on some numerals: `9e29` is one. -/
def toBinary64 (n : Numeral) : Except Fault Binary64 :=
  match Binary64.ofDecimal n.negative n.significand n.exponent with
  | some x => .ok x
  | none => .error .numberRange

/-- The integer that the numeral spells out, if it is one of 64 bits: unsigned, or negative in two's
complement. -/
def integer? (n : Numeral) : Option Int :=
  if !n.integral then none
  else if n.negative then
    if 0 < n.significand ∧ n.significand ≤ 1 <<< 63 then some (-(n.significand : Int)) else none
  else
    if n.significand < 1 <<< 64 then some (n.significand : Int) else none

def toNumber (n : Numeral) : Except Fault Number :=
  match n.integer? with
  | some i => .ok (.integer i)
  | none => n.toBinary64.map .float

end Numeral

end VolBacktest.Json
