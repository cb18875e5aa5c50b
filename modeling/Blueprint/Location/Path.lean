import Blueprint.Text.Fields

/-!
# Paths in locations

A location is cut at its colon and slashes into a `Path` : an optional scheme with its colon, the
number of slashes that lead the rest, and the segments after them. A backslash is read as a
slash. `collapse` removes empty and `.` segments and lets every `..` take away the ordinary
segment before it; a `..` with nothing to take away stays. `clean` is reading, collapsing and
writing again.

`applyRelative` puts a relative location into the directory of another location, without
cleaning, and `resolveRelative` does both.
-/

namespace Blueprint.Location

/-- What stands between two slashes. -/
abbrev Segment := List Char

/-- The segment that stays where it is. -/
def Segment.here : Segment := ['.']

/-- The segment that climbs to the parent. -/
def Segment.up : Segment := ['.', '.']

/-- A location, cut at its colon and slashes. -/
structure Path where
  /-- The part up to and with the first colon, if no slash stands before it. -/
  scheme : List Char
  /-- How many slashes lead the rest. -/
  slashes : Nat
  segments : List Segment
deriving DecidableEq, Repr

/-- A backslash counts as a slash. -/
def forwardSlash (c : Char) : Char := if c = '\\' then '/' else c

/-- The part up to and with the first colon that no slash precedes, and the rest. -/
def splitScheme (cs : List Char) : List Char × List Char :=
  let before := cs.takeWhile fun c => c ≠ ':'
  match cs.dropWhile fun c => c ≠ ':' with
  | [] => ([], cs)
  | colon :: rest => if before.contains '/' then ([], cs) else (before ++ [colon], rest)

/-- Reads a location. -/
def Path.ofChars (cs : List Char) : Path :=
  let (scheme, rest) := splitScheme (cs.map forwardSlash)
  let leading := rest.takeWhile (· = '/')
  ⟨scheme, leading.length, Text.fields (· = '/') (rest.dropWhile (· = '/'))⟩

/-- Adds a segment to the segments before it, the nearest of which comes first. -/
def pushSegment (before : List Segment) (s : Segment) : List Segment :=
  if s = [] ∨ s = Segment.here then before
  else if s = Segment.up then
    match before with
    | [] => [Segment.up]
    | last :: rest => if last = Segment.up then Segment.up :: before else rest
  else s :: before

/-- The segments that are left when every `..` has taken away what it can. -/
def collapse (segments : List Segment) : List Segment :=
  (segments.foldl pushSegment []).reverse

/-- The segments with a slash between each two. -/
def joinSegments : List Segment → List Char
  | [] => []
  | [s] => s
  | s :: ss => s ++ '/' :: joinSegments ss

/-- Writes a location. -/
def Path.toChars (p : Path) : List Char :=
  p.scheme ++ List.replicate p.slashes '/' ++ joinSegments p.segments

/-- The location without empty, `.` and avoidable `..` segments. -/
def cleanChars (cs : List Char) : List Char :=
  let p := Path.ofChars cs
  Path.toChars { p with segments := collapse p.segments }

/-- The location without empty, `.` and avoidable `..` segments. -/
def clean (location : String) : String := String.ofList (cleanChars location.toList)

/-- The location up to its last slash, if it has one. -/
def directory? (cs : List Char) : Option (List Char) :=
  match cs.reverse.dropWhile fun c => c ≠ '/' with
  | [] => none
  | _ :: before => some before.reverse

/-- The relative location in the directory of the base. -/
def applyRelativeChars (base relative : List Char) : List Char :=
  match directory? base with
  | none => relative
  | some dir => dir ++ (if relative.head? = some '/' then relative else '/' :: relative)

/-- The relative location in the directory of the base. -/
def applyRelative (base relative : String) : String :=
  String.ofList (applyRelativeChars base.toList relative.toList)

/-- The clean location that a relative one has as seen from a document at `base`. -/
def resolveRelative (base relative : String) : String := clean (applyRelative base relative)

end Blueprint.Location
