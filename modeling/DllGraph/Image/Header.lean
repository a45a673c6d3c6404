import DllGraph.Image.Fault
import DllGraph.Image.Record
import DllGraph.Text.Utf8

/-!
# Headers of an Image

Validation and decoding of the DOS, COFF and optional headers and of the section table. The
decoded value, an `Image`, is all that the readers of the tables need to know about a file besides
its bytes.

The checks are made in the order in which the structures follow each other in the file, and the
first one that fails is the fault that is reported. A section whose raw data runs past the end of
the file is not a fault: its raw data is cut at the end of the file.
-/

namespace DllGraph

/-- A section of an image. -/
structure Section where
  name : String
  address : UInt32
  virtualSize : UInt32
  /-- The offset of the raw data in the file. -/
  rawPointer : UInt32
  /-- The number of bytes of raw data; with `rawPointer` it stays within the file. -/
  rawSize : UInt32
  characteristics : UInt32
deriving DecidableEq, Inhabited

namespace Section

/-- One past the last raw byte of the section. -/
def rawEnd (s : Section) : Nat :=
  s.rawPointer.toNat + s.rawSize.toNat

/-- The section that an entry of the section table describes in a file of a given size. Its name
ends at the first zero byte. -/
def ofRecord (fileSize : Nat) (r : SectionRecord) : Section where
  name := Text.Utf8.decodeLossy (r.name.takeWhile (· != 0))
  address := r.address
  virtualSize := r.virtualSize
  rawPointer := UInt32.ofNat (min r.rawPointer.toNat fileSize)
  rawSize := UInt32.ofNat (min r.rawSize.toNat (fileSize - r.rawPointer.toNat))
  characteristics := r.characteristics

end Section

/-- The decoded headers of an image. -/
structure Image where
  is64Bit : Bool
  machine : UInt16
  characteristics : UInt16
  timestamp : UInt32
  imageBase : UInt64
  subsystem : UInt16
  directories : List DataDirectory
  sections : List Section
deriving DecidableEq, Inhabited

namespace Image

/-- The signature of the new header, `PE` and two zero bytes, as a word. -/
def signature : UInt32 := 0x4550

/-- The bytes that the signature takes. -/
def signatureSize : Nat := 4

/-- The bytes that the DOS header takes. -/
def dosHeaderSize : Nat := 64

/-- The offset, in the DOS header, of the offset of the new header. -/
def newHeaderField : Nat := 60

/-- The two layouts of the optional header by their magic number: whether the image is a 64-bit
one, and the size of the fields before the data directories. -/
def layout? (magic : UInt16) : Option (Bool × Nat) :=
  if magic = 0x10B then some (false, 96)
  else if magic = 0x20B then some (true, 112)
  else none

/-- The offset of the new header, once the DOS header and the signature have been checked. -/
def newHeader (b : Bytes) : Except Fault Nat := do
  if b.size < 2 then throw (.fileTooShort 2 b.size)
  if b[0]? ≠ some 0x4D ∨ b[1]? ≠ some 0x5A then throw .invalidDosMagic
  if b.size < dosHeaderSize then throw (.fileTooShort dosHeaderSize b.size)
  let offset := (← Fault.expect .invalidDosMagic (b.u16? newHeaderField)).toNat
  let found ← Fault.expect (.invalidNewHeaderOffset offset) (b.u32? offset)
  if found ≠ signature then throw (.invalidPeMagic found)
  return offset

/-- The data directories at an offset, of which there is room for so many. -/
def readDirectories (b : Bytes) (offset room : Nat) (count : UInt32) :
    Except Fault (List DataDirectory) := do
  if room < count.toNat then throw (.invalidDirectoryCount count)
  Fault.expect (.invalidDirectoryCount count)
    (Bytes.records? (DataDirectory.read? b) DataDirectory.width offset count.toNat)

/-- The sections of the section table at an offset. -/
def readSections (b : Bytes) (offset : Nat) (count : UInt16) : Except Fault (List Section) := do
  let table ← Fault.expect (.invalidSectionTable count)
    (Bytes.records? (SectionRecord.read? b) SectionRecord.size offset count.toNat)
  return table.map (Section.ofRecord b.size)

/-- Validate and decode the headers of a file. -/
def parse (b : Bytes) : Except Fault Image := do
  let coffOffset := (← newHeader b) + signatureSize
  let coff ← Fault.expect (.fileTooShort (coffOffset + CoffHeader.size) b.size)
    (CoffHeader.read? b coffOffset)
  let optional := coffOffset + CoffHeader.size
  let magic ← Fault.expect (.fileTooShort (optional + 2) b.size) (b.u16? optional)
  let (is64Bit, fixed) ← Fault.expect (.invalidOptionalMagic magic) (layout? magic)
  let declared := coff.optionalHeaderSize.toNat
  if declared < fixed then throw (.invalidOptionalSize coff.optionalHeaderSize)
  if b.size < optional + declared then throw (.fileTooShort (optional + declared) b.size)
  let short := Fault.fileTooShort (optional + fixed) b.size
  let imageBase ←
    if is64Bit then Fault.expect short (b.u64? (optional + 24))
    else Fault.expect short ((b.u32? (optional + 28)).map UInt32.toUInt64)
  let subsystem ← Fault.expect short (b.u16? (optional + 68))
  let count ← Fault.expect short (b.u32? (optional + fixed - 4))
  let directories ←
    readDirectories b (optional + fixed) ((declared - fixed) / DataDirectory.width) count
  let sections ← readSections b (optional + declared) coff.sectionCount
  return {
    is64Bit
    machine := coff.machine
    characteristics := coff.characteristics
    timestamp := coff.timestamp
    imageBase
    subsystem
    directories
    sections }

/-- The data directory at an index, if it is declared and not empty. -/
def directory? (image : Image) (index : Nat) : Option DataDirectory :=
  image.directories[index]?.filter (!·.isEmpty)

/-- Whether the image is a DLL rather than a program. -/
def isDll (image : Image) : Bool :=
  image.characteristics &&& 0x2000 != 0

/-- The bytes that an entry of an import lookup table takes. -/
def lookupWidth (image : Image) : Nat :=
  if image.is64Bit then 8 else 4

end Image

end DllGraph
