import TickHost.Text.Extending
import TickHost.Text.Hidden

/-!
# Quoted text

A text between double quotes in which every character is visible: quotes and backslashes stand
after a backslash, and characters that cannot be seen by themselves are named by their code points.
-/

namespace TickHost.Text

/-- The code point of a character in hexadecimal digits. -/
def codePoint (c : Char) : String := String.ofList (Nat.toDigits 16 c.toNat)

/-- How a character is written between double quotes. -/
def quotedChar (c : Char) : String :=
  if c.toNat == 0 then "\\0"
  else if c == '\t' then "\\t"
  else if c == '\r' then "\\r"
  else if c == '\n' then "\\n"
  else if c == '\\' then "\\\\"
  else if c == '\"' then "\\\""
  else if isExtending c || isHidden c then "\\u\x7b" ++ codePoint c ++ "\x7d"
  else c.toString

/-- A text between double quotes. -/
def quoted (s : String) : String :=
  "\"" ++ String.join (s.toList.map quotedChar) ++ "\""

end TickHost.Text
