import Blueprint.Text.Marks
import Blueprint.Text.Printable

/-!
# Quoted text

The form in which log fields and descriptions of values show a text : between double quotes, with
a backslash before a double quote or a backslash, short escapes for the tab, the carriage return,
the line feed and the null character, and the hexadecimal number of every other character that
is not seen or would join its neighbour.
-/

namespace Blueprint.Text

/-- A brace that opens the number of an escaped character. -/
private def openBrace : Char := '\x7b'

/-- A brace that closes the number of an escaped character. -/
private def closeBrace : Char := '\x7d'

/-- One character as it stands between the quotes. -/
def escapeChar (c : Char) : List Char :=
  if c = '"' then ['\\', '"']
  else if c = '\\' then ['\\', '\\']
  else if c = '\t' then ['\\', 't']
  else if c = '\r' then ['\\', 'r']
  else if c = '\n' then ['\\', 'n']
  else if c.toNat = 0 then ['\\', '0']
  else if isJoinedMark c || !isPrintable c then
    ['\\', 'u', openBrace] ++ Nat.toDigits 16 c.toNat ++ [closeBrace]
  else [c]

/-- The characters as they stand between the quotes. -/
def escape (cs : List Char) : List Char := cs.flatMap escapeChar

/-- The text between double quotes. -/
def quoted (s : String) : String := String.ofList ('"' :: escape s.toList ++ ['"'])

/-- The texts between double quotes, in square brackets. -/
def quotedList (ss : List String) : String :=
  "[" ++ String.intercalate ", " (ss.map quoted) ++ "]"

end Blueprint.Text
