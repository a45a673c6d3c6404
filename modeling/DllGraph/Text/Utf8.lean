/-!
# Lossy Decoding

Section names are bytes that are usually text. `decodeLossy` reads them as UTF-8 and puts the
replacement character U+FFFD in the place of every longest run of bytes that starts a character
without completing one.
-/

namespace DllGraph.Text.Utf8

/-- The replacement character. -/
def replacement : Char := Char.ofNat 0xFFFD

/-- Whether a byte may continue a character. -/
def isContinuation (b : UInt8) : Bool :=
  b &&& 0xC0 == 0x80

/-- The range that the second byte of a character must lie in, given its first byte, and how many
bytes follow the first one in all. Overlong forms, surrogates and code points past U+10FFFF are
ruled out by that range. -/
def lead? (b : UInt8) : Option (UInt8 × UInt8 × Nat) :=
  if 0xC2 ≤ b ∧ b ≤ 0xDF then some (0x80, 0xBF, 1)
  else if b = 0xE0 then some (0xA0, 0xBF, 2)
  else if b = 0xED then some (0x80, 0x9F, 2)
  else if 0xE1 ≤ b ∧ b ≤ 0xEF then some (0x80, 0xBF, 2)
  else if b = 0xF0 then some (0x90, 0xBF, 3)
  else if 0xF1 ≤ b ∧ b ≤ 0xF3 then some (0x80, 0xBF, 3)
  else if b = 0xF4 then some (0x80, 0x8F, 3)
  else none

/-- The value that the first byte of a character of `count + 1` bytes contributes. -/
def leadBits (b : UInt8) (count : Nat) : Nat :=
  if count = 1 then (b &&& 0x1F).toNat
  else if count = 2 then (b &&& 0x0F).toNat
  else (b &&& 0x07).toNat

/-- Read up to `count` continuation bytes into a value: the value, and how many were read. -/
def continuations : Nat → Nat → List UInt8 → Nat × Nat
  | 0, value, _ => (value, 0)
  | _ + 1, value, [] => (value, 0)
  | count + 1, value, b :: rest =>
    if isContinuation b then
      let (v, n) := continuations count (value * 64 + (b &&& 0x3F).toNat) rest
      (v, n + 1)
    else (value, 0)

/-- The character that starts with byte `b`, or the replacement character, and how many of the
bytes after `b` belong to it. -/
def decodeOne (b : UInt8) (rest : List UInt8) : Char × Nat :=
  if b < 0x80 then (Char.ofNat b.toNat, 0)
  else
    match lead? b, rest with
    | some (low, high, count), second :: more =>
      if low ≤ second ∧ second ≤ high then
        let (value, used) :=
          continuations (count - 1) (leadBits b count * 64 + (second &&& 0x3F).toNat) more
        if used = count - 1 then (Char.ofNat value, count) else (replacement, used + 1)
      else (replacement, 0)
    | _, _ => (replacement, 0)

/-- The characters of a sequence of bytes, with replacements for what is not UTF-8. -/
def decodeChars : List UInt8 → List Char
  | [] => []
  | b :: rest => (decodeOne b rest).1 :: decodeChars (rest.drop (decodeOne b rest).2)
termination_by bytes => bytes.length
decreasing_by simp only [List.length_drop, List.length_cons]; omega

/-- The text of a sequence of bytes, with replacements for what is not UTF-8. -/
def decodeLossy (bytes : List UInt8) : String :=
  String.ofList (decodeChars bytes)

end DllGraph.Text.Utf8
