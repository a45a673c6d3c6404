import DllGraph.Proofs.Image.Headers
import Mathlib.Algebra.BigOperators.Ring.Finset

/-!
# Where Header Fields Stand

The fields of the headers of an image by their offsets in the file. Some of the offsets are written
in the file themselves: the DOS header says where the new header starts, and the COFF header says
how large the optional header is, behind which the section table stands. The definitions of this
module follow these references as far as they lead, whether or not a check would stop there. A word
that lies past the end of the file counts as zero.

## Main definitions

* `Bytes.word`, the number that is stored at an offset;
* `Layout.start`, `Layout.optional`, `Layout.table` and so on, where the parts of the headers stand;
* `Image.IsDecodedFrom`, that an image has the words of a file as its fields.

## Main results

* `Bytes.word?_eq_some_word` — a word that lies in the file is read;
* `Headers.In.isDecodedFrom` — the image of accepted headers has the words of the file;
* `Image.IsDecodedFrom.unique` — which leaves nothing open;
* `Headers.In.of_agreeBelow` — what follows the section table does not matter to the headers.
-/

namespace DllGraph

/-! ### Words -/

namespace Bytes

/-- The number whose `width` bytes start at an offset, the lowest byte first. What lies past the end
of the file counts as zero. -/
def word (b : Bytes) (offset width : Nat) : Nat :=
  ∑ i ∈ Finset.range width, (b[offset + i]?.getD 0).toNat * 256 ^ i

variable {b : Bytes} {offset width n : Nat}

/-- The lowest byte of a word comes first. -/
theorem word_succ : b.word offset (width + 1) =
    (b[offset]?.getD 0).toNat + 256 * b.word (offset + 1) width := by
  rw [word, Finset.sum_range_succ', word, Finset.mul_sum, Nat.add_comm]
  congr 1
  · rw [Nat.pow_zero, Nat.mul_one, Nat.add_zero]
  · refine Finset.sum_congr rfl fun i _ => ?_
    rw [Nat.add_assoc, Nat.add_comm 1 i, Nat.pow_succ, Nat.mul_comm 256, Nat.mul_assoc]

/-- A word that lies in the file is read. -/
theorem word?_eq_some_word (h : offset + width ≤ b.size) :
    word? b offset width = some (b.word offset width) := by
  induction width generalizing offset with
  | zero => rfl
  | succ width ih =>
    have hrest : word? b (offset + 1) width = some (b.word (offset + 1) width) := ih (by omega)
    have hfirst : b[offset]? = some b[offset] := getElem?_pos b offset (by omega)
    rw [word?, hfirst, hrest, word_succ, hfirst]
    rfl

/-- What is read is the word at the offset. -/
theorem eq_word_of_word? (hwidth : 0 < width) (h : word? b offset width = some n) :
    n = b.word offset width := by
  have hsome : (word? b offset width).isSome := by rw [h]; rfl
  have hle := (word?_isSome_iff.1 hsome).resolve_left (Nat.ne_of_gt hwidth)
  exact Option.some.inj (h.symm.trans (word?_eq_some_word hle))

/-- A 16-bit word that can be read is the word of two bytes. -/
theorem toNat_of_u16? {w : UInt16} (h : b.u16? offset = some w) : w.toNat = b.word offset 2 := by
  obtain ⟨n, hn, rfl⟩ := Option.map_eq_some_iff.1 h
  rw [UInt16.toNat_ofNat_of_lt' (word?_lt hn), eq_word_of_word? (by decide) hn]

/-- A 32-bit word that can be read is the word of four bytes. -/
theorem toNat_of_u32? {w : UInt32} (h : b.u32? offset = some w) : w.toNat = b.word offset 4 := by
  obtain ⟨n, hn, rfl⟩ := Option.map_eq_some_iff.1 h
  rw [UInt32.toNat_ofNat_of_lt' (word?_lt hn), eq_word_of_word? (by decide) hn]

/-- A 64-bit word that can be read is the word of eight bytes. -/
theorem toNat_of_u64? {w : UInt64} (h : b.u64? offset = some w) : w.toNat = b.word offset 8 := by
  obtain ⟨n, hn, rfl⟩ := Option.map_eq_some_iff.1 h
  rw [UInt64.toNat_ofNat_of_lt' (word?_lt hn), eq_word_of_word? (by decide) hn]

/-- The bytes at an offset. -/
theorem eq_of_slice? {count : Nat} {bytes : List UInt8} (h : slice? b offset count = some bytes) :
    bytes = (List.range count).map fun i => b[offset + i]?.getD 0 := by
  induction count generalizing offset bytes with
  | zero =>
    cases h
    rfl
  | succ count ih =>
    simp only [slice?, Option.bind_eq_bind, Option.bind_eq_some_iff, Option.some.injEq] at h
    obtain ⟨first, hfirst, rest, hrest, rfl⟩ := h
    rw [List.range_succ_eq_map, List.map_cons, List.map_map, Nat.add_zero, hfirst, ih hrest]
    simp only [Function.comp_def, Nat.add_assoc, Nat.add_comm 1, Option.getD_some,
      Nat.succ_eq_add_one]

end Bytes

/-! ### Records -/

/-- The fields of the COFF header are the words at their offsets. -/
theorem CoffHeader.toNat_of_read? {b : Bytes} {offset : Nat} {c : CoffHeader}
    (h : read? b offset = some c) :
    c.machine.toNat = b.word offset 2 ∧ c.sectionCount.toNat = b.word (offset + 2) 2 ∧
      c.timestamp.toNat = b.word (offset + 4) 4 ∧
      c.optionalHeaderSize.toNat = b.word (offset + 16) 2 ∧
      c.characteristics.toNat = b.word (offset + 18) 2 := by
  simp only [read?, Option.bind_eq_bind, Option.bind_eq_some_iff, Option.some.injEq] at h
  obtain ⟨machine, hmachine, count, hcount, timestamp, htimestamp, -, -, -, -, size, hsize,
    characteristics, hcharacteristics, rfl⟩ := h
  exact ⟨Bytes.toNat_of_u16? hmachine, Bytes.toNat_of_u16? hcount, Bytes.toNat_of_u32? htimestamp,
    Bytes.toNat_of_u16? hsize, Bytes.toNat_of_u16? hcharacteristics⟩

/-- A data directory is two words, its address and its size. -/
theorem DataDirectory.toNat_of_read? {b : Bytes} {offset : Nat} {d : DataDirectory}
    (h : read? b offset = some d) :
    d.address.toNat = b.word offset 4 ∧ d.size.toNat = b.word (offset + 4) 4 := by
  simp only [read?, Option.bind_eq_bind, Option.bind_eq_some_iff, Option.some.injEq] at h
  obtain ⟨address, haddress, size, hsize, rfl⟩ := h
  exact ⟨Bytes.toNat_of_u32? haddress, Bytes.toNat_of_u32? hsize⟩

/-! ### Offsets -/

namespace Layout

variable (b : Bytes)

/-- The offset of the new header. -/
def start : Nat := b.word 60 2

/-- The number of sections. -/
def sectionCount : Nat := b.word (start b + 6) 2

/-- The declared size of the optional header. -/
def declared : Nat := b.word (start b + 20) 2

/-- The offset of the optional header. -/
def optional : Nat := start b + 24

/-- The magic number of the optional header, which tells the two layouts of it apart. -/
def magic : Nat := b.word (optional b) 2

/-- The size of the fields of the optional header before the data directories. -/
def fixed : Nat := if magic b = 0x20B then 112 else 96

/-- The number of data directories, which is the last one of these fields. -/
def directoryCount : Nat := b.word (optional b + fixed b - 4) 4

/-- The offset of the section table. -/
def table : Nat := optional b + declared b

/-- The end of the section table. -/
def tableEnd : Nat := table b + 40 * sectionCount b

/-- The fixed part of the optional header has at least 96 bytes, in either layout. -/
theorem le_fixed : 96 ≤ fixed b := by
  rw [fixed]
  split <;> decide

end Layout

/-- A section has the fields of the entry of the section table at an offset. Its raw data is cut at
the end of the file. -/
structure Section.IsDecodedFrom (s : Section) (b : Bytes) (offset : Nat) : Prop where
  name : s.name = Text.Utf8.decodeLossy
    (((List.range 8).map fun i => b[offset + i]?.getD 0).takeWhile (· != 0))
  virtualSize : s.virtualSize.toNat = b.word (offset + 8) 4
  address : s.address.toNat = b.word (offset + 12) 4
  rawSize : s.rawSize.toNat = min (b.word (offset + 16) 4) (b.size - b.word (offset + 20) 4)
  rawPointer : s.rawPointer.toNat = min (b.word (offset + 20) 4) b.size
  characteristics : s.characteristics.toNat = b.word (offset + 36) 4

open Layout in
/-- An image has the fields of the headers of a file. -/
structure Image.IsDecodedFrom (image : Image) (b : Bytes) : Prop where
  is64Bit : image.is64Bit = true ↔ magic b = 0x20B
  machine : image.machine.toNat = b.word (start b + 4) 2
  timestamp : image.timestamp.toNat = b.word (start b + 8) 4
  characteristics : image.characteristics.toNat = b.word (start b + 22) 2
  imageBase : image.imageBase.toNat =
    if magic b = 0x20B then b.word (optional b + 24) 8 else b.word (optional b + 28) 4
  subsystem : image.subsystem.toNat = b.word (optional b + 68) 2
  directoryCount : image.directories.length = directoryCount b
  directories : ∀ (i : Nat) (d : DataDirectory), image.directories[i]? = some d →
    d.address.toNat = b.word (optional b + fixed b + 8 * i) 4 ∧
      d.size.toNat = b.word (optional b + fixed b + 8 * i + 4) 4
  sectionCount : image.sections.length = sectionCount b
  sections : ∀ (i : Nat) (s : Section), image.sections[i]? = some s →
    s.IsDecodedFrom b (table b + 40 * i)

/-- One section at most is decoded from a place. -/
theorem Section.IsDecodedFrom.unique {s s' : Section} {b : Bytes} {offset : Nat}
    (h : s.IsDecodedFrom b offset) (h' : s'.IsDecodedFrom b offset) : s = s' := by
  cases s
  cases s'
  rw [Section.mk.injEq]
  exact ⟨h.name.trans h'.name.symm, UInt32.toNat_inj.1 (h.address.trans h'.address.symm),
    UInt32.toNat_inj.1 (h.virtualSize.trans h'.virtualSize.symm),
    UInt32.toNat_inj.1 (h.rawPointer.trans h'.rawPointer.symm),
    UInt32.toNat_inj.1 (h.rawSize.trans h'.rawSize.symm),
    UInt32.toNat_inj.1 (h.characteristics.trans h'.characteristics.symm)⟩

/-- A data directory is determined by its address and its size. -/
theorem DataDirectory.eq_of_toNat {d d' : DataDirectory}
    (haddress : d.address.toNat = d'.address.toNat)
    (hsize : d.size.toNat = d'.size.toNat) : d = d' := by
  cases d
  cases d'
  rw [DataDirectory.mk.injEq]
  exact ⟨UInt32.toNat_inj.1 haddress, UInt32.toNat_inj.1 hsize⟩

/-- The words of a file determine the image. -/
theorem Image.IsDecodedFrom.unique {image image' : Image} {b : Bytes} (h : image.IsDecodedFrom b)
    (h' : image'.IsDecodedFrom b) : image = image' := by
  have hdirectories : image.directories = image'.directories := by
    refine List.ext_getElem (h.directoryCount.trans h'.directoryCount.symm) fun i hi hi' => ?_
    obtain ⟨haddress, hsize⟩ := h.directories i _ (List.getElem?_eq_getElem hi)
    obtain ⟨haddress', hsize'⟩ := h'.directories i _ (List.getElem?_eq_getElem hi')
    exact DataDirectory.eq_of_toNat (haddress.trans haddress'.symm) (hsize.trans hsize'.symm)
  have hsections : image.sections = image'.sections :=
    List.ext_getElem (h.sectionCount.trans h'.sectionCount.symm) fun i hi hi' =>
      (h.sections i _ (List.getElem?_eq_getElem hi)).unique
        (h'.sections i _ (List.getElem?_eq_getElem hi'))
  cases image
  cases image'
  rw [Image.mk.injEq]
  exact ⟨Bool.eq_iff_iff.2 (h.is64Bit.trans h'.is64Bit.symm),
    UInt16.toNat_inj.1 (h.machine.trans h'.machine.symm),
    UInt16.toNat_inj.1 (h.characteristics.trans h'.characteristics.symm),
    UInt32.toNat_inj.1 (h.timestamp.trans h'.timestamp.symm),
    UInt64.toNat_inj.1 (h.imageBase.trans h'.imageBase.symm),
    UInt16.toNat_inj.1 (h.subsystem.trans h'.subsystem.symm), hdirectories, hsections⟩

/-! ### Accepted headers -/

/-- The section that is made of a record is decoded from where the record is. -/
theorem SectionRecord.isDecodedFrom_of_read? {b : Bytes} {offset : Nat} {r : SectionRecord}
    (h : read? b offset = some r) : (Section.ofRecord b.size r).IsDecodedFrom b offset := by
  simp only [read?, Option.bind_eq_bind, Option.bind_eq_some_iff, Option.some.injEq] at h
  obtain ⟨name, hname, virtualSize, hvirtual, address, haddress, rawSize, hsize, rawPointer,
    hpointer, -, -, -, -, -, -, -, -, characteristics, hcharacteristics, rfl⟩ := h
  constructor
  · rw [← Bytes.eq_of_slice? hname]
    rfl
  · exact Bytes.toNat_of_u32? hvirtual
  · exact Bytes.toNat_of_u32? haddress
  · rw [Section.toNat_rawSize_ofRecord, Bytes.toNat_of_u32? hsize, Bytes.toNat_of_u32? hpointer]
  · rw [Section.toNat_rawPointer_ofRecord, Bytes.toNat_of_u32? hpointer]
  · exact Bytes.toNat_of_u32? hcharacteristics

namespace Image

/-- The magic number decides about the layout. -/
theorem layout?_eq_some_iff {magic : UInt16} {is64Bit : Bool} {fixed : Nat} :
    layout? magic = some (is64Bit, fixed) ↔ (magic.toNat = 0x10B ∨ magic.toNat = 0x20B) ∧
      (is64Bit = true ↔ magic.toNat = 0x20B) ∧
      fixed = if magic.toNat = 0x20B then 112 else 96 := by
  have hnarrow : magic = 0x10B ↔ magic.toNat = 0x10B := UInt16.toNat_inj.symm
  have hwide : magic = 0x20B ↔ magic.toNat = 0x20B := UInt16.toNat_inj.symm
  rw [layout?]
  split
  · next h => simp [hnarrow.1 h, eq_comm]
  · next h =>
    split
    · next h' => simp [hwide.1 h', eq_comm]
    · next h' => simp [mt hnarrow.2 h, mt hwide.2 h']

end Image

namespace Headers.In

variable {h : Headers} {b : Bytes}

/-- Headers that are in a file begin where its DOS header says. -/
theorem start_eq (hin : h.In b) : h.start = Layout.start b := by
  obtain ⟨w, hw, hstart⟩ := Option.map_eq_some_iff.1 hin.start
  rw [← hstart]
  exact Bytes.toNat_of_u16? hw

/-- The optional header is where the layout has it. -/
theorem optional_eq (hin : h.In b) : h.optional = Layout.optional b := by
  rw [Headers.optional, hin.start_eq]
  rfl

/-- The magic number is the one in the file. -/
theorem magic_eq (hin : h.In b) : h.magic.toNat = Layout.magic b := by
  rw [Bytes.toNat_of_u16? hin.magic, hin.optional_eq, Layout.magic]

/-- The size of the optional header is the one in the file. -/
theorem declared_eq (hin : h.In b) : h.declared = Layout.declared b := by
  rw [Headers.declared, (CoffHeader.toNat_of_read? hin.coff).2.2.2.1, hin.start_eq]
  rfl

/-- The fixed part of the optional header is as long as the magic number in the file says. -/
theorem fixed_eq (hin : h.In b) : h.fixed = Layout.fixed b := by
  rw [(Image.layout?_eq_some_iff.1 hin.layout).2.2, hin.magic_eq, Layout.fixed]

/-- The image is a 64-bit one if and only if the magic number in the file says so. -/
theorem is64Bit_iff (hin : h.In b) : h.is64Bit = true ↔ Layout.magic b = 0x20B := by
  rw [(Image.layout?_eq_some_iff.1 hin.layout).2.1, hin.magic_eq]

/-- The number of data directories is the one in the file. -/
theorem directoryCount_eq (hin : h.In b) : h.directoryCount.toNat = Layout.directoryCount b := by
  rw [Bytes.toNat_of_u32? hin.directoryCount, hin.optional_eq, hin.fixed_eq, Layout.directoryCount]

/-- The number of sections is the one in the file. -/
theorem sectionCount_eq (hin : h.In b) : h.coff.sectionCount.toNat = Layout.sectionCount b := by
  rw [(CoffHeader.toNat_of_read? hin.coff).2.1, hin.start_eq]
  rfl

/-- The section table ends where the layout has its end. -/
theorem tableEnd_eq (hin : h.In b) :
    h.optional + h.declared + 40 * h.coff.sectionCount.toNat = Layout.tableEnd b := by
  rw [hin.optional_eq, hin.declared_eq, hin.sectionCount_eq, Layout.tableEnd, Layout.table]

/-- The image base is the word of the width and at the offset that the layout gives it. -/
theorem imageBase_eq (hin : h.In b) : h.imageBase.toNat = if Layout.magic b = 0x20B then
    b.word (Layout.optional b + 24) 8 else b.word (Layout.optional b + 28) 4 := by
  have hbase := hin.imageBase
  rw [hin.optional_eq] at hbase
  by_cases hwide : Layout.magic b = 0x20B
  · rw [if_pos (hin.is64Bit_iff.2 hwide)] at hbase
    rw [if_pos hwide, Bytes.toNat_of_u64? hbase]
  · rw [if_neg (mt hin.is64Bit_iff.1 hwide)] at hbase
    obtain ⟨w, hw, hbase⟩ := Option.map_eq_some_iff.1 hbase
    rw [if_neg hwide, ← hbase, UInt32.toNat_toUInt64, Bytes.toNat_of_u32? hw]

/-- The image that accepted headers describe has the words of the file. -/
theorem isDecodedFrom (hin : h.In b) : (h.toImage b.size).IsDecodedFrom b := by
  obtain ⟨hmachine, hcount, htimestamp, -, hcharacteristics⟩ := CoffHeader.toNat_of_read? hin.coff
  rw [hin.start_eq] at hmachine htimestamp hcharacteristics
  have hdirectories := hin.directories
  have htable := hin.table
  rw [hin.optional_eq, hin.fixed_eq] at hdirectories
  rw [hin.optional_eq, hin.declared_eq] at htable
  exact {
    is64Bit := hin.is64Bit_iff
    machine := hmachine
    timestamp := htimestamp
    characteristics := hcharacteristics
    imageBase := hin.imageBase_eq
    subsystem := hin.optional_eq ▸ Bytes.toNat_of_u16? hin.subsystem
    directoryCount := (Bytes.length_of_records? hin.directories).trans hin.directoryCount_eq
    directories := fun i d hd =>
      DataDirectory.toNat_of_read? (Bytes.getElem?_records? hdirectories hd)
    sectionCount := by
      rw [toImage, List.length_map, Bytes.length_of_records? hin.table, hin.sectionCount_eq]
    sections := fun i s hs => by
      rw [toImage, List.getElem?_map] at hs
      obtain ⟨r, hr, rfl⟩ := Option.map_eq_some_iff.1 hs
      exact SectionRecord.isDecodedFrom_of_read? (Bytes.getElem?_records? htable hr) }

/-- The section table ends within the file. -/
theorem tableEnd_le (hin : h.In b) : Layout.tableEnd b ≤ b.size := by
  have hread := SectionRecord.fixedWidth_read?.records? (by decide) h.coff.sectionCount.toNat
  have hfits := (hread.isSome_iff b (h.optional + h.declared)).1 (by rw [hin.table]; rfl)
  have hdeclared := hin.declared_le
  rw [SectionRecord.size] at hfits
  rw [← hin.tableEnd_eq]
  omega

/-- Files that agree up to the end of the section table have the same headers. -/
theorem of_agreeBelow {b' : Bytes} (hin : h.In b) (hb : b.AgreeBelow b' (Layout.tableEnd b)) :
    h.In b' := by
  have hend := hin.tableEnd_eq
  have hsize := hb.le_size hin.tableEnd_le
  have hlarge : 96 ≤ h.fixed := hin.fixed_eq ▸ Layout.le_fixed b
  have hfixed := hin.fixed_le
  have hroom := hin.room
  have hoptional : h.optional = h.start + 4 + 20 := rfl
  rw [DataDirectory.width] at hroom
  exact {
    dosHeader := Nat.le_trans (by rw [Image.dosHeaderSize]; omega) hsize
    dosMagic := ⟨(hb 0 (by omega)).symm.trans hin.dosMagic.1,
      (hb 1 (by omega)).symm.trans hin.dosMagic.2⟩
    start := (Bytes.fixedWidth_u16?.map UInt16.toNat).eq_some_of_agreeBelow hb
      (by rw [Image.newHeaderField]; omega) hin.start
    signature := Bytes.fixedWidth_u32?.eq_some_of_agreeBelow hb (by omega) hin.signature
    coff := CoffHeader.fixedWidth_read?.eq_some_of_agreeBelow hb
      (by rw [Image.signatureSize, CoffHeader.size]; omega) hin.coff
    magic := Bytes.fixedWidth_u16?.eq_some_of_agreeBelow hb (by omega) hin.magic
    layout := hin.layout
    fixed_le := hin.fixed_le
    declared_le := Nat.le_trans (by omega) hsize
    imageBase := by
      have hbase := hin.imageBase
      by_cases hwide : h.is64Bit = true
      · rw [if_pos hwide] at hbase ⊢
        exact Bytes.fixedWidth_u64?.eq_some_of_agreeBelow hb (by omega) hbase
      · rw [if_neg hwide] at hbase ⊢
        exact (Bytes.fixedWidth_u32?.map UInt32.toUInt64).eq_some_of_agreeBelow hb (by omega) hbase
    subsystem := Bytes.fixedWidth_u16?.eq_some_of_agreeBelow hb (by omega) hin.subsystem
    directoryCount := Bytes.fixedWidth_u32?.eq_some_of_agreeBelow hb (by omega) hin.directoryCount
    room := hin.room
    directories := (DataDirectory.fixedWidth_read?.records? (by decide) _).eq_some_of_agreeBelow hb
      (by rw [DataDirectory.width]; omega) hin.directories
    table := (SectionRecord.fixedWidth_read?.records? (by decide) _).eq_some_of_agreeBelow hb
      (by rw [SectionRecord.size]; omega) hin.table }

end Headers.In

end DllGraph
