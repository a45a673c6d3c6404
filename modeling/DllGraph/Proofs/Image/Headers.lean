import DllGraph.Proofs.Image.Fault
import DllGraph.Proofs.Image.Reading

/-!
# Accepted Headers

What a file must hold for its headers to be accepted, and what image they describe. The fields that
the decoder reads are collected in `Headers`; `Headers.In` says where in the file they stand and
which checks they pass.

## Main definitions

* `Headers`, the fields of accepted headers, and the image that they describe;
* `Headers.In`, the places of these fields in a file;
* `Image.LiesWithin`, the images whose sections lie in a file.

## Main results

* `Image.parse_eq_ok_iff` — a file is accepted exactly when it holds headers, and its image is what
  they describe;
* `Image.liesWithin_of_parse` — the raw data of every section of an accepted file lies in it.
-/

namespace DllGraph

/-- The fields of accepted headers. -/
structure Headers where
  /-- The offset of the new header. -/
  start : Nat
  coff : CoffHeader
  magic : UInt16
  is64Bit : Bool
  /-- The size of the fields before the data directories. -/
  fixed : Nat
  imageBase : UInt64
  subsystem : UInt16
  directoryCount : UInt32
  directories : List DataDirectory
  table : List SectionRecord

namespace Headers

/-- The offset of the optional header. -/
def optional (h : Headers) : Nat :=
  h.start + Image.signatureSize + CoffHeader.size

/-- The declared size of the optional header. -/
def declared (h : Headers) : Nat :=
  h.coff.optionalHeaderSize.toNat

/-- The image that headers describe in a file of a given size. -/
def toImage (h : Headers) (fileSize : Nat) : Image where
  is64Bit := h.is64Bit
  machine := h.coff.machine
  characteristics := h.coff.characteristics
  timestamp := h.coff.timestamp
  imageBase := h.imageBase
  subsystem := h.subsystem
  directories := h.directories
  sections := h.table.map (Section.ofRecord fileSize)

/-- A file holds these headers, and they pass all checks. -/
structure In (h : Headers) (b : Bytes) : Prop where
  dosHeader : Image.dosHeaderSize ≤ b.size
  dosMagic : b[0]? = some 0x4D ∧ b[1]? = some 0x5A
  start : (b.u16? Image.newHeaderField).map UInt16.toNat = some h.start
  signature : b.u32? h.start = some Image.signature
  coff : CoffHeader.read? b (h.start + Image.signatureSize) = some h.coff
  magic : b.u16? h.optional = some h.magic
  layout : Image.layout? h.magic = some (h.is64Bit, h.fixed)
  fixed_le : h.fixed ≤ h.declared
  declared_le : h.optional + h.declared ≤ b.size
  imageBase :
    (if h.is64Bit then b.u64? (h.optional + 24)
      else (b.u32? (h.optional + 28)).map UInt32.toUInt64) = some h.imageBase
  subsystem : b.u16? (h.optional + 68) = some h.subsystem
  directoryCount : b.u32? (h.optional + h.fixed - 4) = some h.directoryCount
  room : h.directoryCount.toNat ≤ (h.declared - h.fixed) / DataDirectory.width
  directories :
    Bytes.records? (DataDirectory.read? b) DataDirectory.width (h.optional + h.fixed)
      h.directoryCount.toNat = some h.directories
  table :
    Bytes.records? (SectionRecord.read? b) SectionRecord.size (h.optional + h.declared)
      h.coff.sectionCount.toNat = some h.table

end Headers

namespace Image

open Fault

/-- The new header is found at an offset if and only if the DOS header fits the file, has its magic
and the offset, and the signature is there. -/
theorem newHeader_eq_ok_iff {b : Bytes} {start : Nat} :
    newHeader b = .ok start ↔ dosHeaderSize ≤ b.size ∧ (b[0]? = some 0x4D ∧ b[1]? = some 0x5A) ∧
      (b.u16? newHeaderField).map UInt16.toNat = some start ∧ b.u32? start = some signature := by
  simp only [newHeader, ite_throw_eq_ok_iff, bind_eq_ok_iff, expect_eq_ok_iff, not_or,
    Decidable.not_not, Option.map_eq_some_iff, dosHeaderSize]
  constructor
  · rintro ⟨-, hmagic, hsize, word, hword, found, hfound, rfl, hstart⟩
    cases hstart
    exact ⟨Nat.le_of_not_lt hsize, hmagic, ⟨word, hword, rfl⟩, hfound⟩
  · rintro ⟨hsize, hmagic, ⟨word, hword, rfl⟩, hfound⟩
    exact ⟨by omega, hmagic, Nat.not_lt_of_le hsize, word, hword, _, hfound, rfl, rfl⟩

/-- The data directories are read if and only if there is room for so many and the file has them. -/
theorem readDirectories_eq_ok_iff {b : Bytes} {offset room : Nat} {count : UInt32}
    {directories : List DataDirectory} :
    readDirectories b offset room count = .ok directories ↔ count.toNat ≤ room ∧
      Bytes.records? (DataDirectory.read? b) DataDirectory.width offset count.toNat =
        some directories := by
  simp only [readDirectories, ite_throw_eq_ok_iff, expect_eq_ok_iff, Nat.not_lt]

/-- The sections are read if and only if the file has the whole section table. -/
theorem readSections_eq_ok_iff {b : Bytes} {offset : Nat} {count : UInt16}
    {sections : List Section} :
    readSections b offset count = .ok sections ↔
      ∃ table, Bytes.records? (SectionRecord.read? b) SectionRecord.size offset count.toNat =
        some table ∧ table.map (Section.ofRecord b.size) = sections := by
  simp only [readSections, bind_eq_ok_iff, expect_eq_ok_iff, pure_eq_ok_iff]

/-- A file is accepted exactly when it holds headers that pass all checks. -/
theorem parse_eq_ok_iff {b : Bytes} {image : Image} :
    parse b = .ok image ↔ ∃ h : Headers, h.In b ∧ h.toImage b.size = image := by
  simp only [parse, ite_throw_eq_ok_iff, bind_eq_ok_iff, expect_eq_ok_iff,
    ite_expect_bind_eq_ok_iff, newHeader_eq_ok_iff, readDirectories_eq_ok_iff,
    readSections_eq_ok_iff, Nat.not_lt, pure_eq_ok_iff]
  constructor
  · rintro ⟨start, ⟨hsize, hdos, hstart, hsignature⟩, coff, hcoff, magic, hmagic,
      ⟨is64Bit, fixed⟩, hlayout, hfixed, hdeclared, imageBase, hbase, subsystem, hsubsystem,
      count, hcount, directories, ⟨hroom, hdirectories⟩, sections, ⟨table, htable, rfl⟩, rfl⟩
    exact ⟨⟨start, coff, magic, is64Bit, fixed, imageBase, subsystem, count, directories, table⟩,
      ⟨hsize, hdos, hstart, hsignature, hcoff, hmagic, hlayout, hfixed, hdeclared, hbase,
        hsubsystem, hcount, hroom, hdirectories, htable⟩, rfl⟩
  · rintro ⟨h, hin, rfl⟩
    exact ⟨h.start, ⟨hin.dosHeader, hin.dosMagic, hin.start, hin.signature⟩, h.coff, hin.coff,
      h.magic, hin.magic, (h.is64Bit, h.fixed), hin.layout, hin.fixed_le, hin.declared_le,
      h.imageBase, hin.imageBase, h.subsystem, hin.subsystem, h.directoryCount,
      hin.directoryCount, h.directories, ⟨hin.room, hin.directories⟩, _, ⟨h.table, hin.table, rfl⟩,
      rfl⟩

end Image

/-! ### Sections -/

namespace Section

/-- The raw data of a section begins within the file, or at its end. -/
@[simp] theorem toNat_rawPointer_ofRecord (fileSize : Nat) (r : SectionRecord) :
    (ofRecord fileSize r).rawPointer.toNat = min r.rawPointer.toNat fileSize :=
  UInt32.toNat_ofNat_of_lt' (Nat.lt_of_le_of_lt (Nat.min_le_left ..) r.rawPointer.toNat_lt_size)

/-- The raw data of a section is cut at the end of the file. -/
@[simp] theorem toNat_rawSize_ofRecord (fileSize : Nat) (r : SectionRecord) :
    (ofRecord fileSize r).rawSize.toNat =
      min r.rawSize.toNat (fileSize - r.rawPointer.toNat) :=
  UInt32.toNat_ofNat_of_lt' (Nat.lt_of_le_of_lt (Nat.min_le_left ..) r.rawSize.toNat_lt_size)

/-- However large its fields are, the raw data of a section lies in the file. -/
theorem rawEnd_ofRecord_le (fileSize : Nat) (r : SectionRecord) :
    (ofRecord fileSize r).rawEnd ≤ fileSize := by
  rw [rawEnd, toNat_rawPointer_ofRecord, toNat_rawSize_ofRecord]
  omega

end Section

namespace Image

/-- The raw data of every section lies in the file. -/
def LiesWithin (image : Image) (b : Bytes) : Prop :=
  ∀ s ∈ image.sections, s.rawEnd ≤ b.size

/-- The sections of an image that has been decoded lie within its file. -/
theorem liesWithin_of_parse {b : Bytes} {image : Image} (h : parse b = .ok image) :
    image.LiesWithin b := by
  obtain ⟨headers, -, rfl⟩ := parse_eq_ok_iff.1 h
  intro s hs
  obtain ⟨r, -, rfl⟩ := List.mem_map.1 hs
  exact Section.rawEnd_ofRecord_le b.size r

end Image

end DllGraph
