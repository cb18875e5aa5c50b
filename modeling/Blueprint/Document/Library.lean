import Blueprint.Document.Element
import Blueprint.Document.Resource
import Blueprint.Location.Path

/-!
# Where documents come from

A `Source` reads the documents that imports ask for : it loads the content at a location, reads the
content as an element, and tells whether anything can be loaded there.

A `Library` is a table of finished documents. As a source it loads an empty content for every
stored location and reads that as the stored element.
-/

namespace Blueprint

/-- What reads documents. -/
structure Source where
  load : (location : String) → Except ResourceError Resource
  read : Resource → Except MarkupError Element
  /-- Whether something can be loaded at a location. -/
  available : (location : String) → Bool := fun location => (load location).isOk
  /-- How deeply imports may be nested. -/
  depthLimit : Nat

/-- Documents by location. -/
structure Library where
  documents : Table String Element := {}
deriving Inhabited

namespace Library

/-- Stores a document, in place of one at the same location if need be. -/
def insert (l : Library) (location : String) (root : Element) : Library :=
  ⟨l.documents.insert location root⟩

/-- Removes a document. -/
def remove (l : Library) (location : String) : Library := ⟨l.documents.erase location⟩

/-- The document at a location. -/
def find? (l : Library) (location : String) : Option Element := l.documents.get? location

/-- Whether a document is stored at a location. -/
def contains (l : Library) (location : String) : Bool := l.documents.contains location

/-- How many documents are stored. -/
def size (l : Library) : Nat := l.documents.size

/-- Loads an empty content for a stored location. -/
def load (l : Library) (location : String) : Except ResourceError Resource :=
  if l.contains location then .ok { location } else .error (.notFound location)

/-- Reads a content as the document stored at its location. -/
def read (l : Library) (r : Resource) : Except MarkupError Element :=
  match l.find? r.location with
  | some root => .ok root
  | none => .error ⟨r.location, .notStored⟩

/-- The library as a source. -/
def source (l : Library) : Source where
  load := l.load
  read := l.read
  available := l.contains
  depthLimit := l.size

/-- A library of which some locations cannot be read and some more hold an empty content. -/
structure Damage where
  unreadable : List String := []
  empty : List String := []
  /-- Locations at which the markup is not well-formed. -/
  malformed : List String := []

/-- Loads from a damaged library. -/
def loadDamaged (l : Library) (damage : Damage) (location : String) :
    Except ResourceError Resource :=
  if damage.unreadable.contains location then
    .error (.unreadable location (.stated "permission denied"))
  else if damage.empty.contains location then .ok { location }
  else l.load location

/-- Reads from a library with malformed documents. -/
def readDamaged (l : Library) (damage : Damage) (r : Resource) : Except MarkupError Element :=
  if damage.malformed.contains r.location then
    .error ⟨r.location, .stated "malformed markup"⟩
  else l.read r

/-- Whether a source looks before it loads. -/
inductive Lookup where
  /-- The table is consulted. -/
  | exact
  /-- Loading is tried. -/
  | trial
  /-- Everything is taken to be there. -/
  | optimistic
deriving DecidableEq, Repr

/-- A damaged library as a source. What cannot be loaded is told apart only when loading is
tried. -/
def damagedSource (l : Library) (damage : Damage) : Lookup → Source
  | .exact => { l.source with read := l.readDamaged damage }
  | .trial =>
    { load := l.loadDamaged damage, read := l.readDamaged damage, depthLimit := l.size }
  | .optimistic =>
    { load := l.loadDamaged damage, read := l.readDamaged damage, depthLimit := l.size,
      available := fun _ => true }

end Library

end Blueprint
