import VolBacktest.Calendar.Date
import VolBacktest.Text.Blank

/-!
# Dates as text

A date is written `year-month-day` with two digits for month and day and at least four for the
year; a year outside 0 to 9999 carries its sign. Reading is more lenient than writing: white space
may stand before each part and at the end, and leading zeros may be missing. A year without sign
takes at most four digits, a signed one any number.

Reading goes from left to right and stops at the first problem. A month or day that no month has is
noticed where it stands; that the day exists is checked when everything has been read.
-/

namespace VolBacktest

inductive DateError where
  /-- The text ends where a part of the date is due. -/
  | endOfText
  | strayCharacter
  | outOfRange
  /-- Something stands after the date. -/
  | trailing
deriving DecidableEq

namespace DateError

def message : DateError → String
  | endOfText => "premature end of input"
  | strayCharacter => "input contains invalid characters"
  | outOfRange => "input is out of range"
  | trailing => "trailing input"

end DateError

namespace Date

/-- Four digits, more if needed, with a sign outside 0 to 9999. -/
def yearText (year : Int) : List Char :=
  let digits := Nat.toDigits 10 year.natAbs
  let padded := List.replicate (4 - digits.length) '0' ++ digits
  if year < 0 then '-' :: padded else if 9999 < year then '+' :: padded else padded

def twoDigits (n : Nat) : List Char :=
  if n < 10 then '0' :: Nat.toDigits 10 n else Nat.toDigits 10 n

def chars (date : Date) : List Char :=
  yearText date.year ++ '-' :: twoDigits date.month ++ '-' :: twoDigits date.day

def text (date : Date) : String := String.ofList date.chars

def skipBlanks (cs : List Char) : List Char := cs.dropWhile Text.isBlank

/-- The number formed by the leading digits, of which at most `width` are taken. -/
def readDigits (width : Option Nat) (cs : List Char) : Except DateError (Nat × List Char) :=
  let run := (cs.take (width.getD cs.length)).takeWhile Char.isDigit
  if cs.isEmpty then .error .endOfText
  else if run.isEmpty then .error .strayCharacter
  else .ok (Nat.ofDigitChars 10 run 0, cs.drop run.length)

/-- The year, of any size within 32 bits; whether the calendar reaches it is asked later. -/
def readYear (cs : List Char) : Except DateError (Int × List Char) := do
  let (year, rest) ← match skipBlanks cs with
    | '-' :: digits => (readDigits none digits).map fun (n, rest) => (-(n : Int), rest)
    | '+' :: digits => (readDigits none digits).map fun (n, rest) => ((n : Int), rest)
    | digits => (readDigits (some 4) digits).map fun (n, rest) => ((n : Int), rest)
  if year < -2147483648 ∨ 2147483648 ≤ year then .error .outOfRange
  .ok (year, rest)

/-- A number from 1 up to `limit`. -/
def readBounded (limit : Nat) (cs : List Char) : Except DateError (Nat × List Char) := do
  let (n, rest) ← readDigits (some 2) (skipBlanks cs)
  if n < 1 ∨ limit < n then .error .outOfRange
  .ok (n, rest)

def readHyphen (cs : List Char) : Except DateError (List Char) :=
  match skipBlanks cs with
  | [] => .error .endOfText
  | '-' :: rest => .ok rest
  | _ => .error .strayCharacter

def read (cs : List Char) : Except DateError Date := do
  let (year, cs) ← readYear cs
  let cs ← readHyphen cs
  let (month, cs) ← readBounded 12 cs
  let cs ← readHyphen cs
  let (day, cs) ← readBounded 31 cs
  if !(skipBlanks cs).isEmpty then .error .trailing
  match ofYMD year month day with
  | some date => .ok date
  | none => .error .outOfRange

def parse (text : String) : Except DateError Date := read text.toList

end Date

end VolBacktest
