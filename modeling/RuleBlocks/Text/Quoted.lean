import RuleBlocks.Text.Hidden

/-!
# Quoted texts

A text between double quotes, on one line and with every character visible. Quotes, backslashes
and the common controls are written with a backslash, and every other character without a shape as
its code point in hexadecimal digits.
-/

namespace RuleBlocks.Text

/-- The hexadecimal digits of a code point between braces, after a backslash and `u`. -/
def codePoint (char : Char) : String :=
  "\\u\x7b" ++ String.ofList (Nat.toDigits 16 char.toNat) ++ "\x7d"

/-- How a character is written between double quotes. -/
def quotedChar (char : Char) : String :=
  if char = '"' then "\\\""
  else if char = '\\' then "\\\\"
  else if char = '\t' then "\\t"
  else if char = '\n' then "\\n"
  else if char = '\r' then "\\r"
  else if char = '\x00' then "\\0"
  else if isHidden char then codePoint char
  else char.toString

/-- A text between double quotes. -/
def quoted (text : String) : String :=
  "\"" ++ String.join (text.toList.map quotedChar) ++ "\""

end RuleBlocks.Text
