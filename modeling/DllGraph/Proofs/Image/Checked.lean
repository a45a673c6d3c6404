import DllGraph.Proofs.Image.Address
import Mathlib.Algebra.Group.Nat.Defs

/-!
# Machine Arithmetic

The readers of an image compute with numbers as large as they come. A machine has words of 32 and
of 64 bits, lists that end, and no negative numbers, and a program that leaves these bounds stops.
This module has the translation of addresses and the reading of strings once more, with every sum,
product, difference and index checked, and proves that no check ever fails: on all bytes and on all
images, also on ones that no header describes, with sections that overlap or exceed the file.

Every reader of this kind answers a result, or a fault of the image, unless it stops. To say that it
does not stop is to say that it is a reader without checks, to which `Guarded.ofResult` gives the
form of one that has them.

## Main definitions

* `Stop` and `Checked`, why a program stops, and computations that may;
* `Guarded`, the readers with checks;
* `Checked.locate`, `Checked.locateIn` and `Checked.readAscii`, such readers;
* `Checked.scan` and `Checked.row`, the two ways in which a table is read, record by record.

## Main results

* `Checked.locate_eq` and `Checked.locateIn_eq` — no address makes its translation stop;
* `Checked.readAscii_eq` — and neither does the string at an address make its reader stop;
* `Checked.scan_eq` and `Checked.row_eq` — reading a table does not stop if its end fits a word.
-/

namespace DllGraph

/-- Why a program stops that computes with words. -/
inductive Stop where
  /-- A sum or a product does not fit a word. -/
  | overflow
  /-- A difference is negative. -/
  | negative
  | divisionByZero
  /-- A list has no element of this index, or is not as long as this. -/
  | outOfRange
deriving DecidableEq

/-- A computation that may stop. -/
abbrev Checked := Except Stop

namespace Checked

/-! ### Operations -/

variable {α : Type}

/-- The sum of two words, as a word of so many bits. -/
def add (bits m n : Nat) : Checked Nat :=
  if m + n < 2 ^ bits then .ok (m + n) else .error .overflow

/-- The product of two words, as a word of so many bits. -/
def mul (bits m n : Nat) : Checked Nat :=
  if m * n < 2 ^ bits then .ok (m * n) else .error .overflow

def sub (m n : Nat) : Checked Nat :=
  if n ≤ m then .ok (m - n) else .error .negative

def div (m n : Nat) : Checked Nat :=
  if n = 0 then .error .divisionByZero else .ok (m / n)

/-- The element at an index. -/
def get (as : List α) (i : Nat) : Checked α :=
  match as[i]? with
  | some a => .ok a
  | none => .error .outOfRange

/-- The first `n` elements. -/
def take (as : List α) (n : Nat) : Checked (List α) :=
  if n ≤ as.length then .ok (as.take n) else .error .outOfRange

variable {bits m n : Nat}

/-- A sum that fits the word does not stop. -/
theorem add_eq_ok (h : m + n < 2 ^ bits) : add bits m n = .ok (m + n) :=
  if_pos h

/-- A product that fits the word does not stop. -/
theorem mul_eq_ok (h : m * n < 2 ^ bits) : mul bits m n = .ok (m * n) :=
  if_pos h

/-- A difference that is not negative does not stop. -/
theorem sub_eq_ok (h : n ≤ m) : sub m n = .ok (m - n) :=
  if_pos h

/-- A division by something does not stop. -/
theorem div_eq_ok (h : 0 < n) : div m n = .ok (m / n) :=
  if_neg (Nat.ne_of_gt h)

/-- An index of an element does not stop. -/
theorem get_eq_ok {as : List α} {a : α} (h : as[n]? = some a) : get as n = .ok a := by
  rw [get, h]

/-- A slice that is not longer than the list does not stop. -/
theorem take_eq_ok {as : List α} (h : n ≤ as.length) : take as n = .ok (as.take n) :=
  if_pos h

/-! ### Sequences -/

variable {β : Type}

theorem ok_bind {ε : Type} (a : α) (f : α → Except ε β) : Except.ok a >>= f = f a := rfl

/-- What does not stop for any element does not stop for a list of them. -/
theorem mapM_eq_ok {f : α → Checked β} {g : α → β} (h : ∀ a, f a = .ok (g a)) (as : List α) :
    as.mapM f = .ok (as.map g) := by
  induction as with
  | nil => rfl
  | cons a rest ih =>
    rw [List.mapM_cons, h, ok_bind, ih, ok_bind]
    rfl

end Checked

/-! ### Readers -/

/-- A reader with checks: it ends in a result or in a fault, unless it stops. -/
abbrev Guarded := ExceptT Fault Checked

namespace Guarded

variable {α β γ : Type} {fault : Fault}

/-- A reader that does not stop. -/
def ofResult (x : Except Fault α) : Guarded α :=
  ExceptT.mk (.ok x)

/-- A reader without checks does not stop. -/
theorem run_ofResult (x : Except Fault α) : (ofResult x).run = .ok x := rfl

theorem ofResult_ok_bind (a : α) (f : α → Guarded β) : ofResult (.ok a) >>= f = f a := rfl

theorem ofResult_map_ok_bind (g : α → β) (a : α) (f : β → Guarded γ) :
    ofResult (Except.map g (.ok a)) >>= f = f (g a) := rfl

theorem expect_some_bind (a : α) (f : α → Guarded β) :
    ofResult (Fault.expect fault (some a)) >>= f = f a := rfl

/-- An operation that succeeds goes on. -/
theorem liftM_ok_bind (a : α) (f : α → Guarded β) :
    (liftM (.ok a : Checked α) : Guarded α) >>= f = f a := rfl

end Guarded

namespace Checked

open Guarded

/-! ### Addresses -/

/-- The end of the raw data of a section, with its sum checked. -/
def rawEnd (s : Section) : Checked Nat :=
  add 64 s.rawPointer.toNat s.rawSize.toNat

/-- Where an object lies in the file: its offset, and the index of the section that contains it. -/
structure Located where
  offset : Nat
  index : Nat
deriving DecidableEq

/-- What a program keeps of a place: not the section, but its index. -/
def Located.ofLocation (place : Location) : Located :=
  ⟨place.offset, place.index⟩

/-- Find an object in the first of some sections that covers its address. -/
def locateFrom (rva size : UInt32) : Nat → List Section → Guarded Located
  | _, [] => throw (.notFound rva)
  | index, s :: rest => do
    let stop ← add 64 s.address.toNat s.rawSize.toNat
    if s.address.toNat ≤ rva.toNat ∧ rva.toNat < stop then
      let inside ← sub rva.toNat s.address.toNat
      let offset ← add 64 s.rawPointer.toNat inside
      let objectEnd ← add 64 offset size.toNat
      let rawEnd ← rawEnd s
      if rawEnd < objectEnd then throw (.outOfBounds rva size) else return ⟨offset, index⟩
    else locateFrom rva size (index + 1) rest

/-- Find an object of `size` bytes, as `Image.locate` does. -/
def locate (image : Image) (rva size : UInt32) : Guarded Located :=
  locateFrom rva size 0 image.sections

/-- Find an object that must lie in a given section, as `Image.locateIn` does. -/
def locateIn (image : Image) (index : Nat) (rva : UInt32) : Guarded Located :=
  match image.sections[index]? with
  | none => throw (.notInSection rva)
  | some s =>
    if rva.toNat < s.address.toNat then throw (.notInSection rva)
    else do
      let stop ← add 64 s.address.toNat s.virtualSize.toNat
      if stop ≤ rva.toNat then throw (.notInSection rva)
      else
        let inside ← sub rva.toNat s.address.toNat
        let offset ← add 64 s.rawPointer.toNat inside
        let rawEnd ← rawEnd s
        if rawEnd ≤ offset then throw (.outOfBounds rva 1) else return ⟨offset, index⟩

variable {b : Bytes} {image : Image} {s : Section} {rva size : UInt32} {offset index : Nat}

/-- The end of the raw data of a section is computed without a stop. -/
theorem rawEnd_eq (s : Section) : rawEnd s = .ok s.rawEnd := by
  have hpointer := s.rawPointer.toNat_lt_size
  have hsize := s.rawSize.toNat_lt_size
  rw [UInt32.size] at hpointer hsize
  exact add_eq_ok (by omega)

/-- The raw data of any section ends below `2 ^ 33`. -/
theorem rawEnd_lt (s : Section) : s.rawEnd < 2 ^ 33 := by
  have hpointer := s.rawPointer.toNat_lt_size
  have hsize := s.rawSize.toNat_lt_size
  rw [UInt32.size] at hpointer hsize
  rw [Section.rawEnd]
  omega

/-- The offset of an address, once the address is known not to come before the section. -/
theorem bind_offsetOf {α : Type} (h : s.address.toNat ≤ rva.toNat) (f : Nat → Guarded α) :
    (do
      let inside ← sub rva.toNat s.address.toNat
      let offset ← add 64 s.rawPointer.toNat inside
      f offset) = f (s.offsetOf rva) := by
  have hrva := rva.toNat_lt_size
  have hpointer := s.rawPointer.toNat_lt_size
  rw [UInt32.size] at hrva hpointer
  rw [sub_eq_ok h, liftM_ok_bind, add_eq_ok (by omega), liftM_ok_bind, Section.offsetOf]

/-- The offset of any address in any section is below `2 ^ 33`. -/
theorem offsetOf_lt (s : Section) (rva : UInt32) : s.offsetOf rva < 2 ^ 33 := by
  have hrva := rva.toNat_lt_size
  have hpointer := s.rawPointer.toNat_lt_size
  rw [UInt32.size] at hrva hpointer
  rw [Section.offsetOf]
  omega

/-- The loop over the sections never stops, and finds what the search from front to back finds. -/
theorem locateFrom_eq (index : Nat) (sections : List Section) :
    locateFrom rva size index sections = ofResult
      (match (sections.zipIdx index).find? (·.1.covers rva) with
      | none => .error (.notFound rva)
      | some (s, index) =>
        if s.rawEnd < s.offsetOf rva + size.toNat then .error (.outOfBounds rva size)
        else .ok ⟨s.offsetOf rva, index⟩) := by
  induction sections generalizing index with
  | nil => rfl
  | cons s rest ih =>
    have haddress := s.address.toNat_lt_size
    have hraw := s.rawSize.toNat_lt_size
    have hsize := size.toNat_lt_size
    have hoffset := offsetOf_lt s rva
    rw [UInt32.size] at haddress hraw hsize
    have hcovers : s.covers rva = true ↔
        s.address.toNat ≤ rva.toNat ∧ rva.toNat < s.address.toNat + s.rawSize.toNat := by
      simp [Section.covers]
    rw [locateFrom, add_eq_ok (by omega), liftM_ok_bind, List.zipIdx_cons, List.find?_cons]
    by_cases hin : s.covers rva = true
    · rw [if_pos (hcovers.1 hin), bind_offsetOf (hcovers.1 hin).1, add_eq_ok (by omega),
        liftM_ok_bind, rawEnd_eq, liftM_ok_bind]
      simp only [hin]
      split <;> rfl
    · rw [if_neg fun h => hin (hcovers.2 h), ih]
      simp only [hin]

/-- No address makes its translation stop, and an object is found where it is found without
checks. -/
theorem locate_eq (image : Image) (rva size : UInt32) :
    locate image rva size = ofResult ((image.locate rva size).map Located.ofLocation) := by
  rw [locate, locateFrom_eq, Image.locate]
  cases image.sections.zipIdx.find? (·.1.covers rva) with
  | none => rfl
  | some found =>
    dsimp only
    split <;> rfl

/-- Looking up an address in a given section never stops, whether there is such a section or not. -/
theorem locateIn_eq (image : Image) (index : Nat) (rva : UInt32) :
    locateIn image index rva = ofResult ((image.locateIn index rva).map Located.ofLocation) := by
  rw [locateIn, Image.locateIn]
  cases hs : image.sections[index]? with
  | none => rfl
  | some s =>
    have haddress := s.address.toNat_lt_size
    have hvirtual := s.virtualSize.toNat_lt_size
    rw [UInt32.size] at haddress hvirtual
    dsimp only
    by_cases hbefore : rva.toNat < s.address.toNat
    · have hspans : s.spans rva = false := by
        rw [Section.spans, decide_eq_false (Nat.not_le_of_lt hbefore), Bool.false_and]
      rw [if_pos hbefore, hspans]
      rfl
    · rw [if_neg hbefore, add_eq_ok (by omega), liftM_ok_bind]
      by_cases hafter : s.address.toNat + s.virtualSize.toNat ≤ rva.toNat
      · have hspans : s.spans rva = false := by simp [Section.spans, hafter]
        rw [if_pos hafter, hspans]
        rfl
      · have hspans : s.spans rva = true := by
          simp only [Section.spans, Bool.and_eq_true, decide_eq_true_eq]
          omega
        rw [if_neg hafter, hspans, if_pos rfl, bind_offsetOf (Nat.le_of_not_lt hbefore), rawEnd_eq,
          liftM_ok_bind]
        split <;> rfl

/-! ### Strings -/

/-- The bytes of the file from one offset up to another, if it has them. -/
def range? (b : Bytes) (start stop : Nat) : Option (List UInt8) :=
  if start ≤ stop ∧ stop ≤ b.size then b.slice? start (stop - start) else none

/-- Read the printable ASCII string at an offset in a section, as `DllGraph.readAsciiAt` does. -/
def readAsciiAt (b : Bytes) (s : Section) (offset : Nat) (rva : UInt32) (maxLength : Nat) :
    Guarded String := do
  let rawEnd ← rawEnd s
  let window := min (min rawEnd b.size - offset) maxLength
  let stop ← add 64 offset window
  let candidate ← ofResult (Fault.expect (.invalidString rva .outsideSection)
    (range? b offset stop))
  let length ← ofResult (Fault.expect (.invalidString rva .unterminated)
    (candidate.findIdx? (· == 0)))
  let text ← take candidate length
  if text.isEmpty then throw (.invalidString rva .empty)
  else if text.all isPrintableAscii then return asciiText text
  else throw (.invalidString rva .notPrintable)

/-- Read the printable ASCII string at an address, as `DllGraph.readAscii` does. -/
def readAscii (b : Bytes) (image : Image) (rva : UInt32) (maxLength : Nat) : Guarded String :=
  if rva = 0 then throw (.invalidString rva .nullAddress)
  else do
    let place ← locate image rva 1
    let host ← (get image.sections place.index : Checked Section)
    readAsciiAt b host place.offset rva maxLength

/-- The bytes up to a zero byte are those before the first zero byte of the window. -/
theorem untilZero?_eq {window : Nat} {candidate : List UInt8}
    (h : b.slice? offset window = some candidate) :
    untilZero? b offset window = (candidate.findIdx? (· == 0)).map candidate.take := by
  induction window generalizing offset candidate with
  | zero =>
    cases h
    rfl
  | succ window ih =>
    simp only [Bytes.slice?, Option.bind_eq_bind, Option.bind_eq_some_iff, Option.some.injEq] at h
    obtain ⟨first, hfirst, rest, hrest, rfl⟩ := h
    rw [untilZero?, hfirst, List.findIdx?_cons]
    by_cases hzero : first = 0
    · simp [hzero]
    · simp only [hzero, if_false, ih hrest]
      cases rest.findIdx? (· == 0) <;> simp [hzero]

/-- Every index that is found is the index of an element. -/
theorem take_of_findIdx? {candidate : List UInt8} {length : Nat} {p : UInt8 → Bool}
    (h : candidate.findIdx? p = some length) :
    take candidate length = .ok (candidate.take length) :=
  take_eq_ok (Nat.le_of_lt (List.findIdx?_eq_some_iff_getElem.1 h).1)

/-- No offset that fits a word makes the reader stop: its window ends before the section does, or is
empty. -/
theorem readAsciiAt_eq {maxLength : Nat} (h : offset < 2 ^ 64) :
    readAsciiAt b s offset rva maxLength =
      ofResult (DllGraph.readAsciiAt b s offset rva maxLength) := by
  have hend := rawEnd_lt s
  have hstop : offset + min (min s.rawEnd b.size - offset) maxLength < 2 ^ 64 := by omega
  rw [readAsciiAt, DllGraph.readAsciiAt, rawEnd_eq, liftM_ok_bind]
  dsimp only
  rw [add_eq_ok hstop, liftM_ok_bind]
  generalize min (min s.rawEnd b.size - offset) maxLength = window
  by_cases hout : b.size < offset + window
  · rw [if_pos hout, range?, if_neg (by omega)]
    rfl
  · have hread := (Bytes.fixedWidth_slice? window).isSome (Nat.le_of_not_lt hout)
    obtain ⟨candidate, hcandidate⟩ := Option.isSome_iff_exists.1 hread
    rw [if_neg hout, range?, if_pos (by omega), Nat.add_sub_cancel_left, hcandidate,
      expect_some_bind, untilZero?_eq hcandidate]
    cases hlength : candidate.findIdx? (· == 0) with
    | none => rfl
    | some length =>
      rw [expect_some_bind, take_of_findIdx? hlength, liftM_ok_bind, Option.map_some]
      dsimp only
      split
      · rfl
      · split <;> rfl

/-- A place that has been found leaves room for more than any object needs. -/
theorem offset_lt {place : Location} {n : Nat} (h : place.Fits image n) :
    place.offset + n < 2 ^ 33 :=
  Nat.lt_of_le_of_lt h.le_rawEnd (rawEnd_lt place.host)

/-- The section of a place that has been found is there. -/
theorem get_index_eq_ok {place : Location} {n : Nat} (h : place.Fits image n) :
    get image.sections place.index = .ok place.host :=
  get_eq_ok h.host

/-- The string at an address does not make its reader stop. -/
theorem readAscii_eq (b : Bytes) (image : Image) (rva : UInt32) (maxLength : Nat) :
    readAscii b image rva maxLength = ofResult (DllGraph.readAscii b image rva maxLength) := by
  rw [readAscii, DllGraph.readAscii]
  split
  · rfl
  · rw [locate_eq]
    cases hplace : image.locate rva 1 with
    | error fault => rfl
    | ok place =>
      have hfits := Image.fits_of_locate hplace
      have hoffset := offset_lt hfits
      rw [ofResult_map_ok_bind, Located.ofLocation, get_index_eq_ok hfits, liftM_ok_bind]
      dsimp only
      exact readAsciiAt_eq (by omega)

variable {α : Type} {width : Nat}

/-! ### Tables -/

/-- The record at an offset, whose end must fit a word and lie in the file. -/
def readAt? (b : Bytes) (read : Bytes → Nat → Option α) (width offset : Nat) : Option α :=
  if 2 ^ 64 ≤ offset + width ∨ b.size < offset + width then none else read b offset

/-- The entries of a table before the first one that is null, the first `i` of which have been read
already. -/
def scan (read? : Nat → Option α) (isNull : α → Bool) (width offset : Nat) :
    (i left : Nat) → Checked (Option (List α))
  | _, 0 => return none
  | i, left + 1 => do
    let distance ← mul 64 i width
    let start ← add 64 offset distance
    match read? start with
    | none => return none
    | some entry =>
      if isNull entry then return some []
      else
        let rest ← scan read? isNull width offset (i + 1) left
        return rest.map (entry :: ·)

/-- The records of a table, the first `i` of which have been read already. The fault of one that is
not there is made up beforehand for each of them. -/
def row (fault : Checked Fault) (read? : Nat → Option α) (width offset : Nat) :
    (i left : Nat) → Guarded (List α)
  | _, 0 => return []
  | i, left + 1 => do
    let distance ← mul 64 i width
    let start ← add 64 offset distance
    let missing ← (fault : Checked Fault)
    let first ← ofResult (Fault.expect missing (read? start))
    let rest ← row fault read? width offset (i + 1) left
    return first :: rest

/-- A record of fixed width is read without a stop, wherever it is said to be. -/
theorem readAt?_eq {read : Bytes → Nat → Option α} (hread : Bytes.FixedWidth read width)
    (hwidth : 0 < width) (hb : b.size < 2 ^ 63) : readAt? b read width = read b := by
  funext offset
  rw [readAt?]
  split
  · have hnone : ¬ (read b offset).isSome := by
      rw [hread.isSome_iff]
      omega
    exact (Option.not_isSome_iff_eq_none.1 hnone).symm
  · rfl

/-- If the end of a table fits a word, so do all offsets up to it. -/
theorem offsets_lt {i left : Nat} (h : offset + (i + (left + 1)) * width < 2 ^ 64) :
    i * width < 2 ^ 64 ∧ offset + i * width < 2 ^ 64 ∧
      offset + (i + 1 + left) * width < 2 ^ 64 := by
  have hroom : i * width ≤ (i + (left + 1)) * width :=
    Nat.mul_le_mul_right width (Nat.le_add_right ..)
  have hcount : i + 1 + left = i + (left + 1) := by omega
  exact ⟨by omega, by omega, by rwa [hcount]⟩

/-- The record after the one at some index begins where that one ends. -/
theorem next_offset (offset i width : Nat) :
    offset + i * width + width = offset + (i + 1) * width := by
  rw [Nat.succ_mul, Nat.add_assoc]

/-- A table can be scanned if the end of its room fits a word. -/
theorem scan_eq {read? : Nat → Option α} {isNull : α → Bool} {i left : Nat}
    (h : offset + (i + left) * width < 2 ^ 64) : scan read? isNull width offset i left =
      .ok (sentinelTable? read? isNull width (offset + i * width) left) := by
  induction left generalizing i with
  | zero => rfl
  | succ left ih =>
    obtain ⟨hdistance, hstart, hrest⟩ := offsets_lt h
    rw [scan, mul_eq_ok hdistance, ok_bind, add_eq_ok hstart, ok_bind, sentinelTable?]
    cases read? (offset + i * width) with
    | none => rfl
    | some entry =>
      dsimp only
      split
      · rfl
      · rw [ih hrest, ok_bind, next_offset]
        rfl

/-- And so can its records be read. -/
theorem row_eq {read? : Nat → Option α} {fault : Fault} {i left : Nat}
    (h : offset + (i + left) * width < 2 ^ 64) : row (.ok fault) read? width offset i left =
      ofResult (Fault.expect fault (Bytes.records? read? width (offset + i * width) left)) := by
  induction left generalizing i with
  | zero => rfl
  | succ left ih =>
    obtain ⟨hdistance, hstart, hrest⟩ := offsets_lt h
    rw [row, mul_eq_ok hdistance, liftM_ok_bind, add_eq_ok hstart, liftM_ok_bind, liftM_ok_bind,
      Bytes.records?]
    cases read? (offset + i * width) with
    | none => rfl
    | some first =>
      rw [expect_some_bind, ih hrest, next_offset]
      cases Bytes.records? read? width (offset + (i + 1) * width) left <;> rfl

end Checked

end DllGraph
