import Userland.Text.Hex
import Userland.Text.Hidden

/-!
# Quoted text

In messages a text that came from a program is quoted: control characters have short names where
there are some, quotes and backslashes get a backslash, and every other character that is not shown
as it is (`Hidden.isHidden`) is given by its code point.
-/

namespace Userland.Quoted

/-- How a character is written between quotes. -/
def escape (c : Char) : String :=
  if c = '\x00' then "\\0"
  else if c = '\t' then "\\t"
  else if c = '\r' then "\\r"
  else if c = '\n' then "\\n"
  else if c = '"' then "\\\""
  else if c = '\\' then "\\\\"
  else if Hidden.isHidden c then "\\u\x7b" ++ Hex.digits c.toNat ++ "\x7d"
  else String.singleton c

/-- A text between quotes. -/
def quote (s : String) : String := "\"" ++ String.join (s.toList.map escape) ++ "\""

end Userland.Quoted
