import Blueprint.Document.Library
import Blueprint.Location.Url
import Blueprint.Text.Blank

/-!
# Files

A `FileTree` holds what lies below a root directory : directories and files with their contents. A
location names a file in it by its path, whose leading slashes do not count; a `file` URL names a
file by its whole path; a pattern names nothing.

`FileTree.find` walks along a path as a file system does : every step needs a directory, a `..`
goes back to where the walk came from, and a path with a slash at its end asks for a directory.
-/

namespace Blueprint

/-- What lies at a place of a tree. -/
inductive FileNode where
  | directory
  | file (bytes : List UInt8)
deriving DecidableEq, Repr, Inhabited

/-- The directories and files below a root, by the names that lead to them. -/
structure FileTree where
  /-- The path of the root itself. -/
  root : String
  nodes : Table (List String) FileNode := {}

namespace FileTree

/-- The names in a path, without empty ones and those that stay in place. -/
def steps (path : String) : List String :=
  ((Text.tokens (· = '/') path.toList).map String.ofList).filter (· ≠ ".")

/-- Adds a directory with those it lies in. -/
def addDirectory (t : FileTree) (path : String) : FileTree :=
  let names := steps path
  (List.range names.length).foldl
    (fun t n =>
      let place := names.take (n + 1)
      if t.nodes.contains place then t
      else { t with nodes := t.nodes.insert place .directory })
    t

/-- Adds a file, with the directories it lies in. -/
def addFile (t : FileTree) (path : String) (bytes : List UInt8) : FileTree :=
  let names := steps path
  let t := t.addDirectory (String.intercalate "/" names.dropLast)
  { t with nodes := t.nodes.insert names (.file bytes) }

/-- Why a path leads nowhere. -/
inductive PathFault where
  | missing
  | notDirectory
  | nameTooLong
  | nullInName
deriving DecidableEq, Repr

/-- Walks from a place along more names. Above the root there are only directories, from which no
name leads back; such a place is `none`. -/
def walk (t : FileTree) (place : Option (List String)) :
    List String → Except PathFault (Option (List String))
  | [] => .ok place
  | name :: names =>
    if name = ".." then
      t.walk (place.bind fun names => if names.isEmpty then none else some names.dropLast) names
    else if 255 < name.utf8ByteSize then .error .nameTooLong
    else match place with
    | none => .error .missing
    | some before =>
      let next := before ++ [name]
      match t.nodes.get? next with
      | none => .error .missing
      | some .directory => t.walk (some next) names
      | some (.file _) => if names.isEmpty then .ok (some next) else .error .notDirectory

/-- What lies at a path relative to the root. -/
def find (t : FileTree) (path : String) : Except PathFault FileNode :=
  if path.toList.contains (Char.ofNat 0) then .error .nullInName
  else if 4096 ≤ t.root.utf8ByteSize + 1 + path.utf8ByteSize then .error .nameTooLong
  else
    -- A step that stays in place, like a slash at the end, needs a directory before it.
    let parts := (Text.fields (· = '/') path.toList).map String.ofList
    let asksDirectory := parts.getLast?.any fun last => last = "" || last = "."
    match t.walk (some []) (steps path) with
    | .error fault => .error fault
    | .ok none | .ok (some []) => .ok .directory
    | .ok (some place) =>
      match t.nodes.get? place with
      | none => .error .missing
      | some (.file bytes) => if asksDirectory then .error .notDirectory else .ok (.file bytes)
      | some .directory => .ok .directory

/-- What lies at a path from the root of the file system, of which only the root is known. -/
def outside (path : List UInt8) : Except PathFault FileNode :=
  if path.contains 0 then .error .nullInName
  else if 4096 ≤ path.length then .error .nameTooLong
  else
    -- One character for each byte.
    let names := Text.tokens (· = '/') (path.map fun b => Char.ofNat b.toNat)
    match names.find? fun name => name ≠ ['.'] && name ≠ ['.', '.'] with
    | none => .ok .directory
    | some name => .error (if 255 < name.length then .nameTooLong else .missing)

/-- The path of the file that a file URL names. -/
def urlPath (location : String) : Except ResourceError (List UInt8) :=
  match Location.Url.ofString location with
  | .error fault => .error (.unreadable location (.notUrl fault))
  | .ok url =>
    match url.fileBytes? with
    | none => .error (.unreadable location .notLocal)
    | some path => .ok path

/-- The file that a location names. -/
def pathFor (root location : String) : Except ResourceError String :=
  if Location.fileScheme.isPrefixOf location then (urlPath location).map Text.decodeLossy
  else if Location.allMatches.isPrefixOf location then
    .error (.unreadable location .pattern)
  else
    let relative := String.ofList (location.toList.dropWhile (· = '/'))
    if root.isEmpty || root.toList.getLast? = some '/' then .ok (root ++ relative)
    else .ok (root ++ "/" ++ relative)

/-- What lies at the file that a location names. -/
def lookup (t : FileTree) (location : String) : Except ResourceError FileNode := do
  let found ←
    if Location.fileScheme.isPrefixOf location then outside <$> urlPath location
    else
      let _ ← pathFor t.root location
      pure (t.find (String.ofList (location.toList.dropWhile (· = '/'))))
  match found with
  | .ok node => .ok node
  | .error .missing => .error (.notFound location)
  | .error .notDirectory => .error (.unreadable location .notDirectory)
  | .error .nameTooLong => .error (.unreadable location .nameTooLong)
  | .error .nullInName => .error (.unreadable location .nullInName)

/-- Loads the content of a file. -/
def load (t : FileTree) (location : String) : Except ResourceError Resource :=
  match t.lookup location with
  | .error e => .error e
  | .ok .directory => .error (.unreadable location .directory)
  | .ok (.file bytes) => .ok { location, bytes }

/-- Whether a location names a file. -/
def available (t : FileTree) (location : String) : Bool :=
  match t.lookup location with
  | .ok (.file _) => true
  | _ => false

/-- How many documents of a tree may be open inside each other. A file can be open under more than
one spelling of its location, so the number of files is no bound. -/
def depthLimit : Nat := 1024

/-- The files as a source of documents, whose markup `read` makes out of their text. -/
def source (t : FileTree) (read : String → Option Element) : Source where
  load := t.load
  read := fun r => match r.text with
    | .error cause => .error ⟨r.location, .unreadable cause⟩
    | .ok text => match read text with
      | some root => .ok root
      | none => .error ⟨r.location, .stated "not JSON"⟩
  available := t.available
  depthLimit := depthLimit

end FileTree

end Blueprint
