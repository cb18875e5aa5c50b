import Blueprint.Location.Host

/-!
# Locations that are URLs

`Url.ofString` reads a text as a URL : controls and spaces on its ends and tabs and line breaks
are ignored, a scheme comes first, and what follows depends on the scheme. A `file` URL has a path
and at most a host; `http`, `https`, `ws`, `wss` and `ftp` need a host; any other scheme may have
one after two slashes. A `localhost` in a `file` URL counts as no host.

The path of a file is read segment by segment (`FileSegments`). A drive is never left, and at the
root it takes the place of a host.

Of a URL the library needs the scheme and, for files, the host and the path, so user names, ports
and the paths of other schemes are checked where they can fail and then dropped.
`Url.fileBytes?` is the path of a file on this machine.
-/

namespace Blueprint.Location

/-- A URL. -/
structure Url where
  /-- In small letters. -/
  scheme : List Char
  host : Option Host
  /-- The segments of the path of a file. -/
  segments : List (List Char)
deriving DecidableEq, Repr

/-! ## Scheme -/

/-- A letter of ASCII. -/
private def isAsciiLetter (c : Char) : Bool := ('a' ≤ c && c ≤ 'z') || ('A' ≤ c && c ≤ 'Z')

/-- A digit of ASCII. -/
private def isAsciiDigit (c : Char) : Bool := '0' ≤ c && c ≤ '9'

/-- A character that is left out wherever it stands. -/
def isBreak (c : Char) : Bool := c = '\t' || c = '\n' || c = '\r'

/-- The characters without tabs and line breaks. -/
def withoutBreaks (cs : List Char) : List Char := cs.filter fun c => !isBreak c

/-- The characters without controls and spaces on the ends. -/
def trimControls (cs : List Char) : List Char :=
  let low := fun c : Char => decide (c.toNat ≤ 0x20)
  ((cs.dropWhile low).reverse.dropWhile low).reverse

/-- The scheme, a letter and then letters, digits, `+`, `-` and `.` up to a colon, and what
follows the colon. -/
def schemeAndRest? (cs : List Char) : Option (List Char × List Char) :=
  let isPart := fun c => isAsciiLetter c || isAsciiDigit c || c = '+' || c = '-' || c = '.'
  match cs.dropWhile isPart with
  | ':' :: rest =>
    let scheme := cs.takeWhile isPart
    if scheme.head?.any isAsciiLetter then some (scheme.map Char.toLower, rest) else none
  | _ => none

/-- The schemes that need a host. -/
def hostSchemes : List String := ["http", "https", "ws", "wss", "ftp"]

/-! ## What follows the two slashes -/

/-- The character ends the host and what belongs to it. -/
private def endsAuthority (special : Bool) (c : Char) : Bool :=
  c = '/' || c = '?' || c = '#' || (special && c = '\\')

/-- What follows the user name and password, and whether they are there and not empty. -/
private def afterUser (special : Bool) (cs : List Char) : Except UrlFault (List Char × Bool) :=
  let authority := cs.takeWhile fun c => !endsAuthority special c
  let beyond := cs.drop authority.length
  if authority.contains '@' then
    let user := (authority.reverse.dropWhile (· ≠ '@')).drop 1
    let host := (authority.reverse.takeWhile (· ≠ '@')).reverse
    if user.isEmpty && host.isEmpty && !beyond.isEmpty then .error .emptyHost
    else .ok (host ++ beyond, !user.isEmpty && user ≠ [':'])
  else .ok (cs, false)

/-- The host up to the colon or the end behind it, and what follows; a colon in square brackets
belongs to the host. -/
private def splitHost (special : Bool) : (bracket : Bool) → List Char → List Char × List Char
  | _, [] => ([], [])
  | bracket, c :: cs =>
    if (c = ':' && !bracket) || endsAuthority special c then ([], c :: cs)
    else
      let inside := if c = '[' then true else if c = ']' then false else bracket
      let (host, rest) := splitHost special inside cs
      (c :: host, rest)

/-- Checks what follows the colon behind a host : digits up to 65535 and then the end of the
authority. -/
private def checkPort (cs : List Char) : Except UrlFault Unit :=
  let digits := cs.takeWhile isAsciiDigit
  let ended := match cs.drop digits.length with
    | [] => true
    | c :: _ => endsAuthority true c
  let small := (numeral? 10 digits).any (· ≤ 65535)
  if ended && small then .ok () else .error .invalidPort

/-- Reads what follows the two slashes of a scheme other than `file`. -/
private def readHost (special : Bool) (cs : List Char) : Except UrlFault Host := do
  let (rest, hasUser) ← afterUser special cs
  let (text, rest) := splitHost special false rest
  if special && text.isEmpty then throw .emptyHost
  let host ← if special then Host.special text else Host.opaqueHost text
  match rest with
  | ':' :: digits =>
    if text.isEmpty then throw .emptyHost
    checkPort digits
  | _ => if text.isEmpty && hasUser then throw .emptyHost
  return host

/-! ## Paths of files -/

/-- A slash of either direction. -/
private def isSlash (c : Char) : Bool := c = '/' || c = '\\'

/-- A drive : a letter and a colon or bar. -/
def isDrive : List Char → Bool
  | [c, d] => isAsciiLetter c && (d = ':' || d = '|')
  | _ => false

/-- A segment that stays where it is, in any spelling. -/
private def isHere (s : List Char) : Bool :=
  s = ['.'] || s.map Char.toLower = ['%', '2', 'e']

/-- A segment that climbs, in any spelling. -/
private def isUp (s : List Char) : Bool :=
  [".." , ".%2e", "%2e.", "%2e%2e"].any fun t => t.toList = s.map Char.toLower

/-- The path of a file as far as it was read. -/
structure FileSegments where
  /-- The segments so far, the last first. -/
  done : List (List Char) := []
  /-- A drive stands at the root, which leaves no place for a host. -/
  hasDrive : Bool := false
deriving DecidableEq, Repr, Inhabited

namespace FileSegments

/-- Leaves the last segment, unless it is a drive. -/
def climb (p : FileSegments) : FileSegments :=
  match p.done with
  | [] => p
  | s :: ss => if isDrive s then p else { p with done := ss }

/-- Adds a segment. A drive at the root is written with a colon. -/
def add (p : FileSegments) (s : List Char) : FileSegments :=
  match p.done, s with
  | [], c :: _ =>
    if isDrive s then { done := [[c, ':']], hasDrive := true }
    else { p with done := [s] }
  | ss, s => { p with done := s :: ss }

/-- A drive at the start of a segment that ends where a tab or line break was, and what follows
it. -/
private def cutDrive? (text : List Char) : Option (List Char × List Char) :=
  match text.filter (fun c => !isBreak c), text.dropWhile (· ≠ ':') with
  | c :: ':' :: d :: rest, _ :: next :: _ =>
    if isDrive [c, ':'] && isBreak next then some ([c, ':'], d :: rest) else none
  | _, _ => none

/-- Reads a segment; the `last` one has no slash behind it. A drive at the root that a tab or line
break sets apart is a segment by itself, and what follows it stays as it is. -/
def read (p : FileSegments) (text : List Char) (last : Bool) : FileSegments :=
  let s := withoutBreaks text
  match if p.done.isEmpty then cutDrive? text else none with
  | some (drive, rest) => { p with done := [rest, drive] }
  | none =>
    if isUp s then
      let p := p.climb
      if last then { p with done := [] :: p.done } else p
    else if isHere s then if last then { p with done := [] :: p.done } else p
    else p.add s

/-- Reads the segments of a path. -/
def readAll (p : FileSegments) : List (List Char) → FileSegments
  | [] => p
  | [text] => p.read text true
  | text :: texts => readAll (p.read text false) texts

/-- Reads a path up to its query or fragment. -/
def ofChars (cs : List Char) : FileSegments :=
  readAll {} (Text.fields isSlash (cs.takeWhile fun c => c ≠ '?' && c ≠ '#'))

/-- The segments from the root on, without the empty ones in front of others. -/
def toList (p : FileSegments) : List (List Char) :=
  match p.done.reverse.dropWhile List.isEmpty with
  | [] => [[]]
  | ss => ss

end FileSegments

/-- What follows the slash at the start, if there is one. -/
private def afterSlash? (cs : List Char) : Option (List Char) :=
  match cs.dropWhile isBreak with
  | c :: rest => if isSlash c then some rest else none
  | [] => none

/-- Reads what follows the two slashes of a file. Where no other machine is named, a slash of the
path is one of its own. -/
private def readFileHost (cs : List Char) : Except UrlFault (Option Host × FileSegments) := do
  let text := withoutBreaks (cs.takeWhile fun c => !endsAuthority true c)
  let rest := cs.dropWhile fun c => !endsAuthority true c
  if isDrive text then return (none, FileSegments.ofChars cs)
  if text.isEmpty then return (none, FileSegments.ofChars rest)
  let host ← Host.special text
  if host = .domain "localhost".toList then return (none, FileSegments.ofChars rest)
  let path := FileSegments.ofChars ((afterSlash? rest).getD rest)
  return (if path.hasDrive then none else some host, path)

/-- Reads what follows `file:`. -/
private def readFile (cs : List Char) : Except UrlFault (Option Host × FileSegments) :=
  match afterSlash? cs with
  | none => .ok (none, FileSegments.ofChars cs)
  | some rest =>
    match afterSlash? rest with
    | none => .ok (none, FileSegments.ofChars rest)
    | some authority => readFileHost authority

/-! ## URLs -/

/-- Reads a text as a URL. -/
def Url.ofString (s : String) : Except UrlFault Url :=
  let text := trimControls s.toList
  match schemeAndRest? (withoutBreaks text) with
  | none => .error .noScheme
  | some (scheme, rest) =>
    if scheme = "file".toList then do
      -- In a path of a file, a tab or line break can matter.
      let (host, path) ← readFile ((text.dropWhile (· ≠ ':')).drop 1)
      return ⟨scheme, host, path.toList⟩
    else if hostSchemes.any fun h => h.toList = scheme then do
      let host ← readHost true (rest.dropWhile isSlash)
      return ⟨scheme, some host, []⟩
    else match rest with
    | '/' :: '/' :: authority => do
      let host ← readHost false authority
      return ⟨scheme, some host, []⟩
    | _ => .ok ⟨scheme, none, []⟩

/-- The bytes of the path of a file on this machine. A drive at the end of the path gets a
slash. -/
def Url.fileBytes? (u : Url) : Option (List UInt8) :=
  if u.host.isSome then none
  else
    let bytes := u.segments.flatMap fun s =>
      Text.encode "/" ++ percentDecode (Text.encode (String.ofList s))
    match bytes.reverse with
    | d :: c :: _ :: _ =>
      if isDrive [Char.ofNat c.toNat, Char.ofNat d.toNat] then some (bytes ++ Text.encode "/")
      else some bytes
    | _ => some bytes

/-- The start of a location that means every match of a pattern. -/
def allMatches : String := "classpath*:"

/-- The start of a location that is a file URL. -/
def fileScheme : String := "file:"

/-- Whether a location stands by itself : a pattern, a URL whose scheme is longer than a drive
letter, or a path from the root. -/
def isAbsolute (location : String) : Bool :=
  allMatches.isPrefixOf location ||
    (match Url.ofString location with
      | .ok url => 1 < url.scheme.length
      | .error _ => false) ||
    location.toList.head? = some '/'

end Blueprint.Location
