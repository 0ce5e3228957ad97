import VolBacktest.Text.Unprintable

/-!
# Quoted text in messages

Messages quote free text so that it stays on one line and every character can be told: quotation
marks, backslashes and the common control characters have short escapes, and any other character
that is not visible on its own is given by its number.
-/

namespace VolBacktest.Text

/-- One character between quotation marks. -/
def quotedChar (c : Char) : List Char :=
  if c = '"' then ['\\', '"']
  else if c = '\\' then ['\\', '\\']
  else if c = '\n' then ['\\', 'n']
  else if c = '\r' then ['\\', 'r']
  else if c = '\t' then ['\\', 't']
  else if c.toNat = 0 then ['\\', '0']
  else if isPrintable c then [c]
  else ['\\', 'u', '\x7b'] ++ Nat.toDigits 16 c.toNat ++ ['\x7d']

def quoted (text : String) : String :=
  String.ofList ('"' :: text.toList.flatMap quotedChar ++ ['"'])

/-- Text that may be absent. -/
def quotedOption : Option String → String
  | none => "None"
  | some text => "Some(" ++ quoted text ++ ")"

end VolBacktest.Text
