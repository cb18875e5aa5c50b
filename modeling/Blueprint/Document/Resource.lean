import Blueprint.Location.Url
import Blueprint.Text.Utf8

/-!
# Resources

A `Resource` is the content of one document with the location it was read from. Reading can fail
in two ways, which `ResourceError` keeps apart : nothing is there, or what is there cannot be
read. A `MarkupError` says that the content is no document.
-/

namespace Blueprint

/-- Why something that exists cannot be read. -/
inductive ReadFault where
  /-- The content is not text. -/
  | notText (fault : Text.Utf8Fault)
  /-- The location is not a URL, although it starts like one. -/
  | notUrl (fault : Location.UrlFault)
  /-- The URL names a file of another machine. -/
  | notLocal
  /-- The location is a pattern. -/
  | pattern
  | directory
  /-- The path goes through something that is not a directory. -/
  | notDirectory
  | nameTooLong
  | nullInName
  /-- Said by whoever reads. -/
  | stated (reason : String)
deriving DecidableEq, Repr

/-- The wording of the fault. -/
def ReadFault.message : ReadFault → String
  | .notText fault => fault.message
  | .notUrl fault => fault.message
  | .notLocal => "not a local file URL"
  | .pattern => "search patterns are not supported by the filesystem loader"
  | .directory => "Is a directory (os error 21)"
  | .notDirectory => "Not a directory (os error 20)"
  | .nameTooLong => "File name too long (os error 36)"
  | .nullInName => "file name contained an unexpected NUL byte"
  | .stated reason => reason

/-- Why a location gives no resource. -/
inductive ResourceError where
  | notFound (location : String)
  | unreadable (location : String) (fault : ReadFault)
deriving DecidableEq, Repr

/-- The wording of the error. -/
def ResourceError.message : ResourceError → String
  | .notFound location => s!"Resource not found: {location}"
  | .unreadable location fault =>
    s!"Resource '{location}' could not be read: " ++ fault.message

/-- Why a content is no document. -/
inductive MarkupFault where
  /-- Nothing is stored at the location. -/
  | notStored
  /-- The content could not be read. -/
  | unreadable (cause : ResourceError)
  /-- Said by whoever reads the markup. -/
  | stated (reason : String)
deriving DecidableEq, Repr

/-- The wording of the fault. -/
def MarkupFault.message : MarkupFault → String
  | .notStored => "no document stored for this location"
  | .unreadable cause => cause.message
  | .stated reason => reason

/-- The content at a location is no document. -/
structure MarkupError where
  location : String
  fault : MarkupFault
deriving DecidableEq, Repr

/-- The wording of the error. -/
def MarkupError.message (e : MarkupError) : String :=
  s!"Failed to parse '{e.location}': " ++ e.fault.message

/-- The content of one document and where it was read. -/
structure Resource where
  location : String
  bytes : List UInt8 := []
deriving DecidableEq, Repr, Inhabited

/-- The content as text. -/
def Resource.text (r : Resource) : Except ResourceError String :=
  (Text.decode r.bytes).mapError fun fault => .unreadable r.location (.notText fault)

end Blueprint
