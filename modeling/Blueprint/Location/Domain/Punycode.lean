/-!
# Punycode

A way to write any text in letters, digits and hyphens of ASCII. The characters of ASCII come
first, with a hyphen behind them; what follows says, in numbers of variable length, where the
other characters go, in ascending order of their code points. Each number says how many pairs of
a code point and a place lie before the next character.

`decode?` reads such a text. A number ends with a digit below a threshold, and the thresholds
adapt to the numbers read so far (`adapt`). Numbers and code points have to fit in 32 bits.
-/

namespace Blueprint.Location.Punycode

/-- The base of the numbers. -/
def base : Nat := 36

/-- The least and the greatest threshold. -/
def leastThreshold : Nat := 1

def greatestThreshold : Nat := 26

/-- The value of a digit : letters first, in small or capital letters, and then the numerals. -/
def digit? (c : Char) : Option Nat :=
  if 'a' ≤ c && c ≤ 'z' then some (c.toNat - 'a'.toNat)
  else if 'A' ≤ c && c ≤ 'Z' then some (c.toNat - 'A'.toNat)
  else if '0' ≤ c && c ≤ '9' then some (c.toNat - '0'.toNat + 26)
  else none

/-- The threshold of a digit at the position `k`. -/
def threshold (bias k : Nat) : Nat :=
  if k ≤ bias then leastThreshold
  else if bias + greatestThreshold ≤ k then greatestThreshold
  else k - bias

/-- Takes a number down to the range of one digit, with the positions that this skips. -/
def scaleDown (delta k : Nat) : Nat × Nat :=
  if 455 < delta then scaleDown (delta / 35) (k + base) else (delta, k)
termination_by delta
decreasing_by exact Nat.div_lt_self (by omega) (by decide)

/-- The bias behind a number, when there are `count` characters. -/
def adapt (delta count : Nat) (first : Bool) : Nat :=
  let halved := if first then delta / 700 else delta / 2
  let (delta, k) := scaleDown (halved + halved / count) 0
  k + base * delta / (delta + 38)

/-- The number, if it fits in 32 bits. -/
def word? (n : Nat) : Option Nat := if n < UInt32.size then some n else none

/-- Adds the number at the start of the digits to `sum`. Gives the sum and what follows. -/
def readNumber (bias : Nat) : (k weight sum : Nat) → List Char → Option (Nat × List Char)
  | _, _, _, [] => none
  | k, weight, sum, c :: cs => do
    let digit ← digit? c
    let product ← word? (digit * weight)
    let sum ← word? (sum + product)
    if digit < threshold bias k then some (sum, cs)
    else
      let weight ← word? (weight * (base - threshold bias k))
      readNumber bias (k + base) weight sum cs

theorem length_lt_of_readNumber {bias k weight sum n : Nat} {cs rest : List Char}
    (h : readNumber bias k weight sum cs = some (n, rest)) : rest.length < cs.length := by
  induction cs generalizing k weight sum with
  | nil => simp [readNumber] at h
  | cons c cs ih =>
    simp only [readNumber, Option.bind_eq_bind, Option.bind_eq_some_iff] at h
    obtain ⟨digit, -, product, -, total, -, h⟩ := h
    split at h
    · simp only [Option.some.injEq, Prod.mk.injEq] at h
      simp [← h.2]
    · obtain ⟨weight, -, h⟩ := Option.bind_eq_some_iff.mp h
      have := ih h
      simp only [List.length_cons]
      omega

/-- The character with a code point, if it is one. -/
def char? (n : Nat) : Option Char :=
  if n < 0xd800 || (0xdfff < n && n < 0x110000) then some (Char.ofNat n) else none

/-- Puts the characters that the digits tell of among those in `done`. The last one was `code`,
and `place` is the place behind it. -/
def insertAll (bias code place : Nat) (done digits : List Char) : Option (List Char) :=
  if digits.isEmpty then some done
  else match _h : readNumber bias base 1 place digits with
  | none => none
  | some (sum, rest) =>
    let count := done.length + 1
    match word? (code + sum / count), char? (code + sum / count) with
    | some code, some c =>
      insertAll (adapt (sum - place) count (place = 0)) code (sum % count + 1)
        (done.insertIdx (sum % count) c) rest
    | _, _ => none
termination_by digits.length
decreasing_by exact length_lt_of_readNumber _h

/-- The text that stands behind the last hyphen, and the one before it. -/
def splitLast (cs : List Char) : List Char × List Char :=
  match cs.reverse.span (· ≠ '-') with
  | (_, []) | (_, [_]) => ([], cs)
  | (behind, _ :: before) => (before.reverse, behind.reverse)

/-- The text that is written so. -/
def decode? (cs : List Char) : Option (List Char) :=
  let (ascii, digits) := splitLast cs
  insertAll 72 0x80 0 ascii digits

end Blueprint.Location.Punycode
