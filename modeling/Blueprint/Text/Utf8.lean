/-!
# UTF-8

`decode` reads bytes as text and, where they are not UTF-8, says where the first bad sequence
starts and how long it is : the longest beginning of a well-formed sequence that the bytes there
agree with, or, when the bytes end inside such a beginning, that the sequence is incomplete.
`decodeLossy` puts a replacement character in the place of every such sequence.
-/

namespace Blueprint.Text

/-- Why bytes are not UTF-8. -/
inductive Utf8Fault where
  /-- The `length` bytes from `start` on begin no character. -/
  | invalid (start length : Nat)
  /-- The bytes end inside the character that begins at `start`. -/
  | incomplete (start : Nat)
deriving DecidableEq, Repr

/-- The wording of the fault. -/
def Utf8Fault.message : Utf8Fault → String
  | .invalid start length => s!"invalid utf-8 sequence of {length} bytes from index {start}"
  | .incomplete start => s!"incomplete utf-8 byte sequence from index {start}"

/-- The bytes that may follow a leading byte : how many there are in all, and the range of the
first of them. -/
def followers (lead : Nat) : Option (Nat × Nat × Nat) :=
  if 0xc2 ≤ lead && lead ≤ 0xdf then some (1, 0x80, 0xbf)
  else if lead = 0xe0 then some (2, 0xa0, 0xbf)
  else if lead = 0xed then some (2, 0x80, 0x9f)
  else if 0xe1 ≤ lead && lead ≤ 0xef then some (2, 0x80, 0xbf)
  else if lead = 0xf0 then some (3, 0x90, 0xbf)
  else if 0xf1 ≤ lead && lead ≤ 0xf3 then some (3, 0x80, 0xbf)
  else if lead = 0xf4 then some (3, 0x80, 0x8f)
  else none

/-- Reads `count` following bytes, the first of them between `low` and `high`. The answer is the
value they add to, or how many bytes were good, with `none` when the bytes ended. -/
def readFollowers : (count low high value good : Nat) → List UInt8 → Except (Option Nat) Nat
  | 0, _, _, value, _, _ => .ok value
  | _ + 1, _, _, _, _, [] => .error none
  | count + 1, low, high, value, good, b :: bs =>
    if low ≤ b.toNat && b.toNat ≤ high then
      readFollowers count 0x80 0xbf (value * 64 + b.toNat % 64) (good + 1) bs
    else .error (some good)

/-- The character at the start of `b :: bs` with the number of its following bytes, or how many
bytes there begin no character. -/
def decodeChar (b : UInt8) (bs : List UInt8) : Except (Option Nat) (Char × Nat) :=
  if b.toNat < 0x80 then .ok (Char.ofNat b.toNat, 0)
  else match followers b.toNat with
    | none => .error (some 1)
    | some (count, low, high) =>
      match readFollowers count low high (b.toNat % Nat.pow 2 (6 - count)) 1 bs with
      | .ok value => .ok (Char.ofNat value, count)
      | .error e => .error e

/-- Reads the bytes, the first of which stands at `start`. -/
def decodeFrom (start : Nat) : List UInt8 → Except Utf8Fault (List Char)
  | [] => .ok []
  | b :: bs =>
    match decodeChar b bs with
    | .ok (c, count) =>
      match decodeFrom (start + 1 + count) (bs.drop count) with
      | .ok cs => .ok (c :: cs)
      | .error e => .error e
    | .error (some length) => .error (.invalid start length)
    | .error none => .error (.incomplete start)
termination_by bs => bs.length
decreasing_by
  simp only [List.length_drop, List.length_cons]
  omega

/-- The text that the bytes spell. -/
def decode (bytes : List UInt8) : Except Utf8Fault String :=
  (decodeFrom 0 bytes).map String.ofList

/-- The text that the bytes spell, with a replacement character for every bad sequence. -/
def decodeLossyChars : List UInt8 → List Char
  | [] => []
  | b :: bs =>
    match decodeChar b bs with
    | .ok (c, count) => c :: decodeLossyChars (bs.drop count)
    | .error (some length) => '\uFFFD' :: decodeLossyChars (bs.drop (length - 1))
    | .error none => ['\uFFFD']
termination_by bs => bs.length
decreasing_by
  all_goals
    simp only [List.length_drop, List.length_cons]
    omega

/-- As `decode`, but total. -/
def decodeLossy (bytes : List UInt8) : String := String.ofList (decodeLossyChars bytes)

/-- The bytes of a text. -/
def encode (s : String) : List UInt8 := s.toUTF8.toList

end Blueprint.Text
