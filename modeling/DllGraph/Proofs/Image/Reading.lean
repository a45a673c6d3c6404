import DllGraph.Image.Exports
import DllGraph.Image.Imports

/-!
# Reading at an Offset

Every record of an image has a fixed width. Whether one can be read, and what is read, depends on
the bytes that it takes and on nothing else. This is one property of a read (`Bytes.FixedWidth`),
and it is proved of each record by putting together the words that the record is made of.

## Main definitions

* `Bytes.FixedWidth`, the reads that look at so many bytes from their offset on;
* `Bytes.AgreeBelow`, the files that hold the same bytes below an offset.

## Main results

* `Bytes.FixedWidth.bind` — one read after the other looks at as many bytes as the longer one;
* `ImportRecord.fixedWidth_read?` and its like — the records of an image have the widths that
  their sizes say;
* `Bytes.records?_isSome_iff` — a row of records can be read exactly when each of them can.
-/

namespace DllGraph

namespace Bytes

/-- A read that looks at `width` bytes from its offset on: it succeeds exactly when they are in the
file, and what it answers is determined by them. -/
structure FixedWidth {α : Type} (read : Bytes → Nat → Option α) (width : Nat) : Prop where
  isSome_iff : ∀ b offset, (read b offset).isSome ↔ width = 0 ∨ offset + width ≤ b.size
  congr : ∀ {b b' : Bytes} {offset},
    (∀ i < width, b[offset + i]? = b'[offset + i]?) → read b offset = read b' offset

namespace FixedWidth

variable {α β : Type} {read : Bytes → Nat → Option α} {width : Nat}

/-- A reader that looks at nothing takes no bytes. -/
theorem pure (a : α) : FixedWidth (fun _ _ => some a) 0 where
  isSome_iff := by simp
  congr _ := rfl

/-- Changing what is read does not change what it takes. -/
theorem map (h : FixedWidth read width) (f : α → β) :
    FixedWidth (fun b offset => (read b offset).map f) width where
  isSome_iff b offset := by simpa using h.isSome_iff b offset
  congr hbytes := by rw [h.congr hbytes]

/-- One read after the other, from the same offset on. -/
theorem bind (h : FixedWidth read width) {next : α → Bytes → Nat → Option β} {width' : Nat}
    (hnext : ∀ a, FixedWidth (next a) width') :
    FixedWidth (fun b offset => read b offset >>= fun a => next a b offset) (max width width')
    where
  isSome_iff := by
    intro b offset
    have hiff := h.isSome_iff b offset
    cases hread : read b offset with
    | none =>
      rw [hread] at hiff
      simp only [Option.isSome_none, Bool.false_eq_true, false_iff] at hiff
      simp only [Option.bind_eq_bind, Option.bind_none, Option.isSome_none, Bool.false_eq_true,
        false_iff]
      omega
    | some a =>
      rw [hread] at hiff
      simp only [Option.isSome_some, true_iff] at hiff
      simp only [Option.bind_eq_bind, Option.bind_some, (hnext a).isSome_iff]
      omega
  congr := by
    intro b b' offset hbytes
    rw [h.congr fun i hi => hbytes i (by omega)]
    refine congrArg (_ >>= ·) (funext fun a => ?_)
    exact (hnext a).congr fun i hi => hbytes i (by omega)

/-- A read that starts further on. -/
theorem shift (h : FixedWidth read width) (hwidth : 0 < width) (start : Nat) :
    FixedWidth (fun b offset => read b (offset + start)) (start + width) where
  isSome_iff := by
    intro b offset
    rw [h.isSome_iff]
    omega
  congr := by
    intro b b' offset hbytes
    refine h.congr fun i hi => ?_
    rw [Nat.add_assoc]
    exact hbytes (start + i) (by omega)

/-- What fits in the file can be read. -/
theorem isSome (h : FixedWidth read width) {b : Bytes} {offset : Nat}
    (hle : offset + width ≤ b.size) : (read b offset).isSome :=
  (h.isSome_iff b offset).2 (.inr hle)

/-- What takes some bytes can be read only if it fits in the file. -/
theorem isSome_iff_le (h : FixedWidth read width) (hwidth : 0 < width) {b : Bytes}
    {offset : Nat} : (read b offset).isSome ↔ offset + width ≤ b.size := by
  rw [h.isSome_iff, or_iff_right (Nat.ne_of_gt hwidth)]

end FixedWidth

/-- Two files hold the same bytes below an offset. -/
def AgreeBelow (b b' : Bytes) (bound : Nat) : Prop :=
  ∀ i < bound, b[i]? = b'[i]?

/-- Files that agree up to a bound within the first one have this part both. -/
theorem AgreeBelow.le_size {b b' : Bytes} {bound : Nat} (h : b.AgreeBelow b' bound)
    (hle : bound ≤ b.size) : bound ≤ b'.size := by
  refine Nat.le_of_not_lt fun hlt => ?_
  have hlast : b[b'.size]? = b'[b'.size]? := h _ hlt
  rw [getElem?_pos b _ (by omega), getElem?_neg b' _ (Nat.lt_irrefl _)] at hlast
  cases hlast

/-- What is read below the offset is the same in both. -/
theorem FixedWidth.eq_some_of_agreeBelow {α : Type} {read : Bytes → Nat → Option α} {width : Nat}
    (hread : FixedWidth read width) {b b' : Bytes} {offset bound : Nat}
    (h : b.AgreeBelow b' bound) (hle : offset + width ≤ bound) {a : α}
    (ha : read b offset = some a) : read b' offset = some a := by
  rw [← ha]
  exact hread.congr fun i hi => (h _ (by omega)).symm

/-! ### Words -/

/-- A word depends on its own bytes. -/
theorem word?_congr {b b' : Bytes} {offset width : Nat}
    (h : ∀ i < width, b[offset + i]? = b'[offset + i]?) :
    word? b offset width = word? b' offset width := by
  induction width generalizing offset with
  | zero => rfl
  | succ width ih =>
    have hfirst : b[offset]? = b'[offset]? := h 0 (Nat.succ_pos width)
    have hrest : word? b (offset + 1) width = word? b' (offset + 1) width := by
      refine ih fun i hi => ?_
      rw [Nat.add_assoc, Nat.add_comm 1 i]
      exact h (i + 1) (Nat.succ_lt_succ hi)
    simp only [word?, hfirst, hrest]

/-- A word takes as many bytes as it has. -/
theorem fixedWidth_word? (width : Nat) :
    FixedWidth (fun b offset => word? b offset width) width where
  isSome_iff _ _ := word?_isSome_iff
  congr := word?_congr

theorem fixedWidth_u16? : FixedWidth u16? 2 := (fixedWidth_word? 2).map UInt16.ofNat

theorem fixedWidth_u32? : FixedWidth u32? 4 := (fixedWidth_word? 4).map UInt32.ofNat

theorem fixedWidth_u64? : FixedWidth u64? 8 := (fixedWidth_word? 8).map UInt64.ofNat

/-! ### Rows of records -/

variable {α : Type} {read? read?' : Nat → Option α} {width offset count : Nat}

/-- A row of records can be read exactly when each of them can. -/
theorem records?_isSome_iff :
    (records? read? width offset count).isSome ↔
      ∀ i < count, (read? (offset + i * width)).isSome := by
  induction count generalizing offset with
  | zero => simp [records?]
  | succ count ih =>
    have hshift : ∀ i, offset + width + i * width = offset + (i + 1) * width := fun i => by
      rw [Nat.succ_mul]
      omega
    simp only [Nat.forall_lt_succ_left, Nat.zero_mul, Nat.add_zero, ← hshift, ← ih, records?]
    cases read? offset with
    | none => simp
    | some first => cases records? read? width (offset + width) count <;> simp

/-- A row has as many records as asked for. -/
theorem length_of_records? {records : List α}
    (h : records? read? width offset count = some records) : records.length = count := by
  induction count generalizing offset records with
  | zero =>
    cases h
    rfl
  | succ count ih =>
    simp only [records?, Option.bind_eq_bind, Option.bind_eq_some_iff, Option.some.injEq] at h
    obtain ⟨first, -, rest, hrest, rfl⟩ := h
    rw [List.length_cons, ih hrest]

/-- The record at an index of a row. -/
theorem getElem?_records? {records : List α}
    (h : records? read? width offset count = some records) {i : Nat} {a : α}
    (ha : records[i]? = some a) : read? (offset + width * i) = some a := by
  induction count generalizing offset records i with
  | zero =>
    cases h
    cases ha
  | succ count ih =>
    simp only [records?, Option.bind_eq_bind, Option.bind_eq_some_iff, Option.some.injEq] at h
    obtain ⟨first, hfirst, rest, hrest, rfl⟩ := h
    cases i with
    | zero =>
      cases ha
      exact hfirst
    | succ i =>
      rw [Nat.mul_succ, Nat.add_comm (width * i), ← Nat.add_assoc]
      exact ih hrest ha

/-- Rows of equal records are equal. -/
theorem records?_congr (h : ∀ i < count, read? (offset + i * width) = read?' (offset + i * width)) :
    records? read? width offset count = records? read?' width offset count := by
  induction count generalizing offset with
  | zero => rfl
  | succ count ih =>
    have hfirst : read? offset = read?' offset := by simpa using h 0 (Nat.succ_pos count)
    have hrest : records? read? width (offset + width) count =
        records? read?' width (offset + width) count := by
      refine ih fun i hi => ?_
      have hshift : offset + width + i * width = offset + (i + 1) * width := by
        rw [Nat.succ_mul]
        omega
      rw [hshift]
      exact h (i + 1) (Nat.succ_lt_succ hi)
    simp only [records?, hfirst, hrest]

/-- A row of records looks at the bytes of all of them. -/
theorem FixedWidth.records? {read : Bytes → Nat → Option α} (h : FixedWidth read width)
    (hwidth : 0 < width) (count : Nat) :
    FixedWidth (fun b offset => Bytes.records? (read b) width offset count) (width * count) where
  isSome_iff b offset := by
    rw [records?_isSome_iff]
    constructor
    · intro hall
      cases count with
      | zero => exact .inl rfl
      | succ count =>
        have hlast := (h.isSome_iff b _).1 (hall count (Nat.lt_succ_self count))
        rw [Nat.mul_comm count width] at hlast
        rw [Nat.mul_succ]
        omega
    · intro hle i hi
      have hroom : width * (i + 1) ≤ width * count := Nat.mul_le_mul_left width hi
      rw [Nat.mul_succ] at hroom
      refine h.isSome ?_
      rw [Nat.mul_comm i width]
      omega
  congr hbytes := by
    refine records?_congr fun i hi => h.congr fun k hk => ?_
    have hroom : width * (i + 1) ≤ width * count := Nat.mul_le_mul_left width hi
    rw [Nat.mul_succ] at hroom
    rw [Nat.add_assoc, Nat.mul_comm i width]
    exact hbytes _ (by omega)

/-! ### Bytes -/

/-- A byte takes one byte. -/
theorem fixedWidth_byte : FixedWidth (fun b offset => b[offset]?) 1 where
  isSome_iff b offset := by
    by_cases hb : offset < b.size
    · rw [getElem?_pos b offset hb]
      exact ⟨fun _ => .inr hb, fun _ => rfl⟩
    · rw [getElem?_neg b offset hb]
      simp only [Option.isSome_none, Bool.false_eq_true, false_iff]
      omega
  congr hbytes := hbytes 0 Nat.one_pos

/-- Bytes are records of width one. -/
theorem slice?_eq_records? (b : Bytes) (offset count : Nat) :
    slice? b offset count = records? (fun i => b[i]?) 1 offset count := by
  induction count generalizing offset with
  | zero => rfl
  | succ count ih => simp only [slice?, Bytes.records?, ih]

/-- A slice takes as many bytes as are asked for. -/
theorem fixedWidth_slice? (count : Nat) :
    FixedWidth (fun b offset => slice? b offset count) count := by
  simpa only [slice?_eq_records?, Nat.one_mul] using fixedWidth_byte.records? Nat.one_pos count

end Bytes

/-! ### The records of an image -/

open Bytes

/-- A 16-bit field of a record. -/
theorem fixedWidth_u16?_at (start : Nat) :
    FixedWidth (fun b offset => b.u16? (offset + start)) (start + 2) :=
  fixedWidth_u16?.shift (by decide) start

/-- A 32-bit field of a record. -/
theorem fixedWidth_u32?_at (start : Nat) :
    FixedWidth (fun b offset => b.u32? (offset + start)) (start + 4) :=
  fixedWidth_u32?.shift (by decide) start

/-- The COFF header takes the bytes of its fields. -/
theorem CoffHeader.fixedWidth_read? : FixedWidth read? size :=
  fixedWidth_u16?.bind fun _ => (fixedWidth_u16?_at 2).bind fun _ =>
    (fixedWidth_u32?_at 4).bind fun _ => (fixedWidth_u32?_at 8).bind fun _ =>
      (fixedWidth_u32?_at 12).bind fun _ => (fixedWidth_u16?_at 16).bind fun _ =>
        (fixedWidth_u16?_at 18).bind fun _ => .pure _

/-- A data directory takes the bytes of its fields. -/
theorem DataDirectory.fixedWidth_read? : FixedWidth read? width :=
  fixedWidth_u32?.bind fun _ => (fixedWidth_u32?_at 4).bind fun _ => .pure _

/-- An entry of the section table takes the bytes of its fields. -/
theorem SectionRecord.fixedWidth_read? : FixedWidth read? size :=
  (fixedWidth_slice? 8).bind fun _ => (fixedWidth_u32?_at 8).bind fun _ =>
    (fixedWidth_u32?_at 12).bind fun _ => (fixedWidth_u32?_at 16).bind fun _ =>
      (fixedWidth_u32?_at 20).bind fun _ => (fixedWidth_u32?_at 24).bind fun _ =>
        (fixedWidth_u32?_at 28).bind fun _ => (fixedWidth_u16?_at 32).bind fun _ =>
          (fixedWidth_u16?_at 34).bind fun _ => (fixedWidth_u32?_at 36).bind fun _ => .pure _

/-- An import record takes the bytes of its fields. -/
theorem ImportRecord.fixedWidth_read? : FixedWidth read? size :=
  fixedWidth_u32?.bind fun _ => (fixedWidth_u32?_at 4).bind fun _ =>
    (fixedWidth_u32?_at 8).bind fun _ => (fixedWidth_u32?_at 12).bind fun _ =>
      (fixedWidth_u32?_at 16).bind fun _ => .pure _

/-- A delay-load record takes the bytes of its fields. -/
theorem DelayRecord.fixedWidth_read? : FixedWidth read? size :=
  fixedWidth_u32?.bind fun _ => (fixedWidth_u32?_at 4).bind fun _ =>
    (fixedWidth_u32?_at 8).bind fun _ => (fixedWidth_u32?_at 12).bind fun _ =>
      (fixedWidth_u32?_at 16).bind fun _ => (fixedWidth_u32?_at 20).bind fun _ =>
        (fixedWidth_u32?_at 24).bind fun _ => (fixedWidth_u32?_at 28).bind fun _ => .pure _

/-- An export directory takes the bytes of its fields. -/
theorem ExportRecord.fixedWidth_read? : FixedWidth read? size :=
  fixedWidth_u32?.bind fun _ => (fixedWidth_u32?_at 4).bind fun _ =>
    (fixedWidth_u16?_at 8).bind fun _ => (fixedWidth_u16?_at 10).bind fun _ =>
      (fixedWidth_u32?_at 12).bind fun _ => (fixedWidth_u32?_at 16).bind fun _ =>
        (fixedWidth_u32?_at 20).bind fun _ => (fixedWidth_u32?_at 24).bind fun _ =>
          (fixedWidth_u32?_at 28).bind fun _ => (fixedWidth_u32?_at 32).bind fun _ =>
            (fixedWidth_u32?_at 36).bind fun _ => .pure _

/-- No entry of a lookup table is empty. -/
theorem Image.lookupWidth_pos {image : Image} : 0 < image.lookupWidth := by
  rw [lookupWidth]
  split <;> decide

/-- An entry of a lookup table takes four or eight bytes, as the image has it. -/
theorem LookupEntry.fixedWidth_read? (image : Image) :
    FixedWidth (read? · image) image.lookupWidth := by
  cases hwide : image.is64Bit with
  | true =>
    have hread : (read? · image) = fun b offset => (b.u64? offset).map ofUInt64 := by
      funext b offset
      simp [read?, hwide]
    simpa [hread, Image.lookupWidth, hwide] using fixedWidth_u64?.map ofUInt64
  | false =>
    have hread : (read? · image) = fun b offset => (b.u32? offset).map ofUInt32 := by
      funext b offset
      simp [read?, hwide]
    simpa [hread, Image.lookupWidth, hwide] using fixedWidth_u32?.map ofUInt32

end DllGraph
