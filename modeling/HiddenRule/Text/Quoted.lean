import HiddenRule.Text.Combining
import HiddenRule.Text.Numeral
import HiddenRule.Text.Unprintable

/-
  This file defines how a text is quoted in a message.

  The quoted form stands in double quotes.  The quote and
  the backslash get a backslash, four control characters are
  written by a letter or digit, and every other character
  that leaves no mark or attaches to its neighbor is written
  by its code point.

  Key definitions include:
    * `Text.quotedChar`
    * `Text.quoted`
-/

namespace HiddenRule

namespace Text

------------------------------------------------------------
-- Quoting
------------------------------------------------------------

/- A character written by its code point. -/
def byCodePoint
    (c : Char) : String :=
  "\\u\x7b" ++ Numeral.hex c.toNat ++ "\x7d"

/- The written form of one character between quotes. -/
def quotedChar
    (c : Char) : String :=
  if c == '"' then "\\\""
  else if c == '\\' then "\\\\"
  else if c == '\x00' then "\\0"
  else if c == '\t' then "\\t"
  else if c == '\n' then "\\n"
  else if c == '\r' then "\\r"
  else if isCombining c || isUnprintable c then byCodePoint c
  else c.toString

/- The quoted form of a text. -/
def quoted
    (text : String) : String :=
  "\"" ++ String.join (text.toList.map quotedChar) ++ "\""

end Text

end HiddenRule
