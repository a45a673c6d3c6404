/-!
# Reading Bytes

The bytes of a file, and bounds-checked reads of the little-endian words in them. A read answers
nothing as soon as one of its bytes lies past the end of the file, so that no offset, however
large, reads anything that is not there.

## Main statements

* `Bytes.word?_isSome_iff` — a word can be read exactly when all of its bytes are in the file;
* `Bytes.word?_lt` — a word of `n` bytes is below `256 ^ n`.
-/

namespace DllGraph

/-- The bytes of a file. -/
abbrev Bytes := ByteArray

namespace Bytes

/-- The number whose `width` bytes start at an offset, the lowest byte first. -/
def word? (b : Bytes) : (offset width : Nat) → Option Nat
  | _, 0 => some 0
  | offset, width + 1 => do
    let low ← b[offset]?
    let high ← word? b (offset + 1) width
    some (low.toNat + 256 * high)

/-- The 16-bit word at an offset. -/
def u16? (b : Bytes) (offset : Nat) : Option UInt16 :=
  (word? b offset 2).map UInt16.ofNat

/-- The 32-bit word at an offset. -/
def u32? (b : Bytes) (offset : Nat) : Option UInt32 :=
  (word? b offset 4).map UInt32.ofNat

/-- The 64-bit word at an offset. -/
def u64? (b : Bytes) (offset : Nat) : Option UInt64 :=
  (word? b offset 8).map UInt64.ofNat

/-- The bytes at an offset, as many as asked for. -/
def slice? (b : Bytes) : (offset count : Nat) → Option (List UInt8)
  | _, 0 => some []
  | offset, count + 1 => do
    let first ← b[offset]?
    let rest ← slice? b (offset + 1) count
    some (first :: rest)

/-- The records at an offset, one after the other, as many as asked for. -/
def records? {α : Type} (read? : Nat → Option α) (width : Nat) : (offset count : Nat) →
    Option (List α)
  | _, 0 => some []
  | offset, count + 1 => do
    let first ← read? offset
    let rest ← records? read? width (offset + width) count
    some (first :: rest)

/-- A word can be read exactly when all of its bytes are in the file. -/
theorem word?_isSome_iff {b : Bytes} {offset width : Nat} :
    (word? b offset width).isSome ↔ width = 0 ∨ offset + width ≤ b.size := by
  induction width generalizing offset with
  | zero => simp [word?]
  | succ width ih =>
    have h := @ih (offset + 1)
    by_cases hb : offset < b.size
    · cases hw : word? b (offset + 1) width with
      | none =>
        rw [hw] at h
        simp only [Option.isSome_none, Bool.false_eq_true, false_iff, not_or] at h
        simp only [word?, getElem?_pos b offset hb, hw, Option.bind_eq_bind, Option.bind_some,
          Option.bind_none, Option.isSome_none, Bool.false_eq_true, false_iff, not_or]
        omega
      | some high =>
        rw [hw] at h
        simp only [Option.isSome_some, true_iff] at h
        simp only [word?, getElem?_pos b offset hb, hw, Option.bind_eq_bind, Option.bind_some,
          Option.isSome_some, true_iff]
        omega
    · simp only [word?, getElem?_neg b offset hb, Option.bind_eq_bind, Option.bind_none,
        Option.isSome_none, Bool.false_eq_true, false_iff, not_or]
      omega

/-- A word of `width` bytes is below `256 ^ width`. -/
theorem word?_lt {b : Bytes} {offset width n : Nat} (h : word? b offset width = some n) :
    n < Nat.pow 256 width := by
  induction width generalizing offset n with
  | zero =>
    simp only [word?, Option.some.injEq] at h
    subst h
    exact Nat.one_pos
  | succ width ih =>
    simp only [word?, Option.bind_eq_bind, Option.bind_eq_some_iff, Option.some.injEq] at h
    obtain ⟨low, -, high, hhigh, rfl⟩ := h
    have hrest : high < Nat.pow 256 width := ih hhigh
    have hbyte : low.toNat < UInt8.size := low.toNat_lt_size
    have hpow : Nat.pow 256 (width + 1) = Nat.pow 256 width * 256 := rfl
    simp only [UInt8.size] at hbyte
    omega

end Bytes

end DllGraph
