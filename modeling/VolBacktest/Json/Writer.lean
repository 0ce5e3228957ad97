import VolBacktest.Calendar.DateText
import VolBacktest.Json.Value

/-!
# Writing JSON

A document is written without white space, with its members in the order in which it holds them. Of
the characters of a string only quotation marks, backslashes and those below the space are escaped.
-/

namespace VolBacktest

/-- Numbers have a point and at least one digit after it if the first digit stands between `10 ^
(-5)` and `10 ^ 15`, and an exponent otherwise. Of two equally near decimals the even one is
written. -/
def Json.numberStyle : NumberStyle where
  tie := .toEven
  positional leading := -5 ≤ leading && leading ≤ 15
  keepsPoint := true

namespace Number

def chars : Number → List Char
  | integer (.ofNat n) => Nat.toDigits 10 n
  | integer (.negSucc n) => '-' :: Nat.toDigits 10 (n + 1)
  | float x => Json.numberStyle.render x

end Number

namespace Json

def date (date : Date) : Json := string date.text

/-- `\u` and four hexadecimal digits, for a character below 256. -/
def hexEscape (c : Char) : List Char :=
  ['\\', 'u', '0', '0', Nat.digitChar (c.toNat / 16), Nat.digitChar (c.toNat % 16)]

def escapedChar (c : Char) : List Char :=
  if c = '"' then ['\\', '"']
  else if c = '\\' then ['\\', '\\']
  else if c = '\x08' then ['\\', 'b']
  else if c = '\t' then ['\\', 't']
  else if c = '\n' then ['\\', 'n']
  else if c = '\x0c' then ['\\', 'f']
  else if c = '\r' then ['\\', 'r']
  else if c < ' ' then hexEscape c
  else [c]

def stringChars (text : String) : List Char :=
  '"' :: text.toList.flatMap escapedChar ++ ['"']

mutual

def chars : Json → List Char
  | null => ['n', 'u', 'l', 'l']
  | bool true => ['t', 'r', 'u', 'e']
  | bool false => ['f', 'a', 'l', 's', 'e']
  | number n => n.chars
  | string text => stringChars text
  | array items => '[' :: itemChars items ++ [']']
  | object members => '\x7b' :: memberChars members ++ ['\x7d']

/-- The items with commas between them. -/
def itemChars : List Json → List Char
  | [] => []
  | item :: rest => chars item ++ moreItemChars rest

/-- Items that follow another. -/
def moreItemChars : List Json → List Char
  | [] => []
  | item :: rest => ',' :: chars item ++ moreItemChars rest

/-- The members with commas between them. -/
def memberChars : List (String × Json) → List Char
  | [] => []
  | (key, value) :: rest => stringChars key ++ ':' :: chars value ++ moreMemberChars rest

/-- Members that follow another. -/
def moreMemberChars : List (String × Json) → List Char
  | [] => []
  | (key, value) :: rest => ',' :: stringChars key ++ ':' :: chars value ++ moreMemberChars rest

end

def text (json : Json) : String := String.ofList json.chars

end Json

end VolBacktest
