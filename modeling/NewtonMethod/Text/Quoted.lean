/-
NewtonMethod/Text/Quoted.lean

Text between double quotes, as a programmer would write it.

Quotes and backslashes are preceded by a backslash, four control characters
have a letter or digit of their own, and every other character that leaves no
mark is written by its number: `\u`, and hexadecimal digits in braces.
-/
import NewtonMethod.Text.Visible

namespace NewtonMethod.Text

/-- A character between quotes. -/
def escape (c : Char) : String :=
  if c = '"' then "\\\""
  else if c = '\\' then "\\\\"
  else if c = '\n' then "\\n"
  else if c = '\r' then "\\r"
  else if c = '\t' then "\\t"
  else if c.toNat = 0 then "\\0"
  else if isVisible c then c.toString
  else "\\u\x7b" ++ String.ofList (Nat.toDigits 16 c.toNat) ++ "\x7d"

/-- The text between quotes. -/
def quoted (s : String) : String := "\"" ++ String.join (s.toList.map escape) ++ "\""

end NewtonMethod.Text
