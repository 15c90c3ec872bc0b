import StartEnd.Text.Printable
import StartEnd.Text.Combining

/-!
# Characters in messages

A message shows a character as itself whenever that is readable. The common
controls and the backslash have two-character escapes, a chosen set of quotes is
written behind a backslash, and everything else that would be invisible or would
attach to its neighbour is written by its code point.
-/

namespace StartEnd.Text

/-- The digits of a number in base sixteen, in lower case. -/
def hexDigits (value : Nat) : String := String.ofList (Nat.toDigits 16 value)

/-- A character written by its code point. -/
def codePointEscape (character : Char) : String :=
  "\\u\x7b" ++ hexDigits character.toNat ++ "\x7d"

/-- A character as a message shows it, with the given quotes behind a backslash. -/
def escape (quotes : List Char) (character : Char) : String :=
  if character = '\x00' then "\\0"
  else if character = '\t' then "\\t"
  else if character = '\r' then "\\r"
  else if character = '\n' then "\\n"
  else if character = '\\' then "\\\\"
  else if character ∈ quotes then "\\" ++ character.toString
  else if isCombining character then codePointEscape character
  else if isPrintable character then character.toString
  else codePointEscape character

/-- A character between single quotes; only the single quote needs a backslash. -/
def quotedCharacter (character : Char) : String :=
  "'" ++ escape ['\''] character ++ "'"

/-- A text between double quotes; only the double quote needs a backslash. -/
def quotedText (text : String) : String :=
  "\"" ++ String.join (text.toList.map (escape ['"'])) ++ "\""

end StartEnd.Text
