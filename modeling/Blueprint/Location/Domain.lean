import Blueprint.Location.Domain.Direction
import Blueprint.Location.Domain.Joiner
import Blueprint.Location.Domain.Mapping
import Blueprint.Location.Domain.Punycode

/-!
# Names of domains

`Domain.read?` brings the name of a domain into the form in which names are compared : characters
are replaced by what they stand for and composed, and labels that start with `xn--` are read as
Punycode. It refuses a name that holds a delimiter of URLs, a label that could be mistaken for
another one, and one that does not keep to the directions of its letters.

A label may be empty, and hyphens may stand anywhere.
-/

namespace Blueprint.Location.Domain

open Text

/-- The character is one of ASCII. -/
def isAscii (c : Char) : Bool := c.toNat < 0x80

/-- A character no domain may hold : blanks, controls and the delimiters of URLs. -/
def isForbidden (c : Char) : Bool :=
  c.toNat ≤ 0x20 || c.toNat = 0x7f || "%#/:<>?@[\\]^|".toList.contains c

/-- How many characters a label may have that are not all of ASCII. -/
def lengthLimit : Nat := 1000

/-- How long the Punycode of a label may be. -/
def punycodeLimit : Nat := 2000

/-- The characters with those of others in their place, composed. -/
def normalize? (cs : List Char) : Option (List Char) :=
  if cs.all isAscii then some (cs.map Char.toLower) else (mapChars cs).map compose

/-- A label that is not written in Punycode, or no longer : it does not start with a mark, its
joiners matter, and it is not too long. -/
def isSound (label : List Char) : Bool :=
  label.all isAscii ||
    (!label.head?.any isMark && joinersFit label && label.length ≤ lengthLimit)

/-- The start of a label in Punycode. -/
def punycodeMark : List Char := "xn--".toList

/-- Reads what follows the mark of Punycode. The characters have to come out as they would from a
label without the mark. -/
def readPunycode? (cs : List Char) : Option (List Char) := do
  guard (cs.all isAscii && cs.length ≤ punycodeLimit)
  guard (cs.getLast?.any (· ≠ '-'))
  let label ← Punycode.decode? cs
  guard (label.all fun c => isPlain c && !isForbidden c)
  guard (compose label = label && isSound label)
  return label

/-- Reads a label. -/
def readLabel? (label : List Char) : Option (List Char) :=
  if punycodeMark.isPrefixOf label then readPunycode? (label.drop punycodeMark.length)
  else if isSound label then some label
  else none

/-- The labels keep to their directions, if any of them has a letter from right to left. -/
def directionsFit (labels : List (List Char)) : Bool :=
  let fromRight := labels.any fun label =>
    label.any fun c => !isAscii c && (Direction.ofChar c).isFromRight
  !fromRight || labels.all keepsDirection

/-- Reads the name of a domain. -/
def read? (cs : List Char) : Option (List Char) := do
  let name ← normalize? cs
  guard (!name.any isForbidden)
  let labels ← (fields (· = '.') name).mapM readLabel?
  guard (directionsFit labels)
  return ['.'].intercalate labels

end Blueprint.Location.Domain
