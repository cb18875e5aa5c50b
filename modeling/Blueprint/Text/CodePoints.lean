import Std.Data.TreeMap
import Blueprint.Text.Fields

/-!
# Sets of code points

Properties of characters are sets of code points that consist of long ranges. `CodePoints` holds
such a set by the first and the last code point of every range, and `contains` looks at the one
range that starts last before a character. `CodePoints.ofText` reads a set in the form in which
tables of Unicode list them : hexadecimal numbers and ranges like `41-5A`, with blanks between.
-/

namespace Blueprint.Text

/-- The value of a hexadecimal digit in capital letters. -/
def capitalDigit (c : Char) : Nat :=
  if c ≤ '9' then c.toNat - '0'.toNat else c.toNat - 'A'.toNat + 10

/-- The number that hexadecimal digits spell. -/
def codePoint (cs : List Char) : Nat := cs.foldl (fun n c => n * 16 + capitalDigit c) 0

/-- The entries of a table, which stand between blanks. -/
def entries (table : String) : List (List Char) := tokens Char.isWhitespace table.toList

/-- A set of code points. -/
structure CodePoints where
  /-- The first code point of each range, with the last one. -/
  ranges : Std.TreeMap Nat Nat

namespace CodePoints

/-- The character is in the set. -/
def contains (s : CodePoints) (c : Char) : Bool :=
  (s.ranges.getEntryLE? c.toNat).any fun r => c.toNat ≤ r.2

/-- Reads an entry of a table : a code point, or two with a hyphen between. -/
def addEntry (ranges : Std.TreeMap Nat Nat) (entry : List Char) : Std.TreeMap Nat Nat :=
  match fields (· = '-') entry with
  | [first, last] => ranges.insert (codePoint first) (codePoint last)
  | _ => ranges.insert (codePoint entry) (codePoint entry)

/-- The set that a table lists. -/
def ofText (table : String) : CodePoints := ⟨(entries table).foldl addEntry {}⟩

end CodePoints

end Blueprint.Text
