import Blueprint.Location.Domain
import Blueprint.Text.Utf8

/-!
# Hosts of locations

What a URL may name as its host. A host in square brackets is an address of eight groups, with
one `::` for groups of zero and possibly a dotted quad at the end. A host of a special scheme is
percent-decoded and read as the name of a domain (`Domain.read?`); when its last label is a number
it has to be an address of up to four parts, decimal, octal or hexadecimal. The host of any other
scheme is opaque and only has to avoid the delimiters of a URL.

`Host.special` and `Host.opaqueHost` read the two kinds.
-/

namespace Blueprint.Location

/-- Why a text is not a URL. -/
inductive UrlFault where
  | emptyHost
  | invalidDomain
  | invalidPort
  | invalidQuad
  | invalidGroups
  | invalidCharacter
  | noScheme
deriving DecidableEq, Repr

/-- The wording of the fault. -/
def UrlFault.message : UrlFault → String
  | .emptyHost => "empty host"
  | .invalidDomain => "invalid international domain name"
  | .invalidPort => "invalid port number"
  | .invalidQuad => "invalid IPv4 address"
  | .invalidGroups => "invalid IPv6 address"
  | .invalidCharacter => "invalid domain character"
  | .noScheme => "relative URL without a base"

/-- A host. -/
inductive Host where
  /-- A name, in the form in which names are compared. -/
  | domain (name : List Char)
  | quad (value : Nat)
  | groups (values : List Nat)
deriving DecidableEq, Repr

/-! ## Digits -/

/-- The value of a digit, hexadecimal ones included. -/
def digitValue? (c : Char) : Option Nat :=
  if '0' ≤ c && c ≤ '9' then some (c.toNat - '0'.toNat)
  else if 'a' ≤ c && c ≤ 'f' then some (c.toNat - 'a'.toNat + 10)
  else if 'A' ≤ c && c ≤ 'F' then some (c.toNat - 'A'.toNat + 10)
  else none

/-- The value of the digits to a base, if all of them are below it. -/
def numeral? (base : Nat) (cs : List Char) : Option Nat :=
  cs.foldl (fun acc c => do
    let n ← acc
    let d ← digitValue? c
    if d < base then some (n * base + d) else none) (some 0)

/-- The byte that two hexadecimal digits behind a `%` stand for. -/
def escapedByte? (b x y : UInt8) : Option UInt8 :=
  if b.toNat = '%'.toNat then
    (numeral? 16 [Char.ofNat x.toNat, Char.ofNat y.toNat]).map UInt8.ofNat
  else none

/-- The bytes of the text with every `%` and its two digits as one byte. -/
def percentDecode : List UInt8 → List UInt8
  | [] => []
  | [b] => [b]
  | [b, c] => [b, c]
  | b :: x :: y :: more =>
    match escapedByte? b x y with
    | some n => n :: percentDecode more
    | none => b :: percentDecode (x :: y :: more)

/-! ## Addresses of up to four parts -/

/-- What a part of an address is. -/
inductive QuadPart where
  | notNumber
  | tooLarge
  | number (n : Nat)
deriving DecidableEq, Repr

/-- Digits to a base, of which there may be none. -/
private def partOfDigits (base : Nat) (cs : List Char) : QuadPart :=
  match numeral? base cs with
  | none => .notNumber
  | some n => if n < UInt32.size then .number n else .tooLarge

/-- Reads a part : hexadecimal after `0x`, octal after `0`, else decimal. -/
def QuadPart.ofChars : List Char → QuadPart
  | [] => .notNumber
  | '0' :: 'x' :: cs | '0' :: 'X' :: cs => partOfDigits 16 cs
  | '0' :: c :: cs => partOfDigits 8 (c :: cs)
  | cs => partOfDigits 10 cs

/-- The labels of a domain, without the empty one behind a final dot. -/
private def labels (domain : List Char) : List (List Char) :=
  match (Text.fields (· = '.') domain).reverse with
  | [] :: before => before.reverse
  | all => all.reverse

/-- All digits, or what a part of an address may be. -/
private def isNumeric (label : List Char) : Bool :=
  (!label.isEmpty && label.all fun c => '0' ≤ c && c ≤ '9') ||
    QuadPart.ofChars label != .notNumber

/-- The last label is a number, or was meant as one. -/
def endsInNumber (domain : List Char) : Bool := (labels domain).getLast?.any isNumeric

/-- Reads an address of up to four parts, the last of which fills the places that are left. -/
def quad? (domain : List Char) : Option Nat := do
  let parts := labels domain
  guard (!parts.isEmpty && parts.length ≤ 4)
  let numbers ← parts.mapM fun p => match QuadPart.ofChars p with
    | .number n => some n
    | _ => none
  let last ← numbers.getLast?
  let front := numbers.dropLast
  let room := Nat.pow 256 (4 - front.length)
  guard (last < room)
  guard (front.all (· < 256))
  return front.foldl (fun acc n => acc * 256 + n) 0 * room + last

/-! ## Addresses of eight groups -/

/-- A run of at most `most` hexadecimal digits : its value, its length and what follows. -/
private def hexRun (most : Nat) (cs : List Char) : Nat × Nat × List Char :=
  let digits := (cs.takeWhile fun c => (digitValue? c).isSome).take most
  ((numeral? 16 digits).getD 0, digits.length, cs.drop digits.length)

/-- A part of the dotted quad at the end : at most 255 and no zero in front. -/
private def quadByte? (cs : List Char) : Option (Nat × List Char) :=
  let digits := cs.takeWhile fun c => '0' ≤ c && c ≤ '9'
  match digits, numeral? 10 digits with
  | [], _ => none
  | '0' :: _ :: _, _ => none
  | _, some n => if n ≤ 255 then some (n, cs.drop digits.length) else none
  | _, none => none

/-- The dotted quad that ends an address, as two groups. -/
private def quadGroups? (cs : List Char) : Option (Nat × Nat) := do
  let (a, cs) ← quadByte? cs
  let cs ← dot? cs
  let (b, cs) ← quadByte? cs
  let cs ← dot? cs
  let (c, cs) ← quadByte? cs
  let cs ← dot? cs
  let (d, cs) ← quadByte? cs
  guard cs.isEmpty
  return (a * 256 + b, c * 256 + d)
where
  /-- What follows a dot. -/
  dot? : List Char → Option (List Char)
    | '.' :: cs => some cs
    | _ => none

/-- How many places are taken by the groups so far; a `::` takes at least one. -/
private def placesTaken (done : List Nat) (gap : Option Nat) : Nat :=
  done.length + gap.toList.length

/-- Reads groups up to the end. `done` holds the groups so far, the last first, and `gap` how
many of them came before the `::`. -/
private def readGroups : (fuel : Nat) → List Char → List Nat → Option Nat →
    Option (List Nat × Option Nat)
  | 0, _, _, _ => none
  | _ + 1, [], done, gap => some (done, gap)
  | fuel + 1, cs, done, gap =>
    if placesTaken done gap = 8 then none
    else match cs with
    | ':' :: rest => if gap.isSome then none else readGroups fuel rest done (some done.length)
    | _ =>
      let (value, length, rest) := hexRun 4 cs
      match rest with
      | '.' :: _ =>
        if length = 0 || placesTaken done gap > 6 then none
        else (quadGroups? cs).map fun (a, b) => (b :: a :: done, gap)
      | ':' :: [] => none
      | ':' :: more => readGroups fuel more (value :: done) gap
      | [] => some (value :: done, gap)
      | _ => none

/-- Reads an address of eight groups. -/
def groups? (cs : List Char) : Option (List Nat) := do
  let start ← match cs with
    | ':' :: ':' :: rest => some (rest, some 0)
    | ':' :: _ => none
    | _ => if cs.length < 2 then none else some (cs, none)
  let (done, gap) ← readGroups (cs.length + 1) start.1 [] start.2
  match gap with
  | some g =>
    let front := done.reverse
    return front.take g ++ List.replicate (8 - done.length) 0 ++ front.drop g
  | none => if done.length = 8 then some done.reverse else none

/-- Reads what stands in square brackets. -/
private def bracketed (cs : List Char) : Except UrlFault Host :=
  match cs.reverse with
  | ']' :: inside =>
    match groups? inside.reverse with
    | some gs => .ok (.groups gs)
    | none => .error .invalidGroups
  | _ => .error .invalidGroups

/-! ## Domains and opaque hosts -/

/-- A character no opaque host may hold. -/
def isForbiddenInHost (c : Char) : Bool :=
  c.toNat = 0 || "\t\n\r #/:<>?@[\\]^|".toList.contains c

/-- Reads the host of a special scheme. -/
def Host.special (cs : List Char) : Except UrlFault Host :=
  match cs with
  | '[' :: rest => bracketed rest
  | _ =>
    match Text.decode (percentDecode (Text.encode (String.ofList cs))) with
    | .error _ => .error .invalidDomain
    | .ok text =>
      match Domain.read? text.toList with
      | none => .error .invalidDomain
      | some [] => .error .emptyHost
      | some name =>
        if endsInNumber name then
          match quad? name with
          | some n => .ok (.quad n)
          | none => .error .invalidQuad
        else .ok (.domain name)

/-- Reads the host of any other scheme. -/
def Host.opaqueHost (cs : List Char) : Except UrlFault Host :=
  match cs with
  | '[' :: rest => bracketed rest
  | _ => if cs.any isForbiddenInHost then .error .invalidCharacter else .ok (.domain cs)

end Blueprint.Location
