import DllGraph.Image.Bytes

/-!
# Records of the Image Format

The fixed-size records that the headers and the tables of an image are made of, each with its size
in the file and a bounds-checked read. All fields are little-endian.
-/

namespace DllGraph

/-- The COFF file header. -/
structure CoffHeader where
  machine : UInt16
  sectionCount : UInt16
  timestamp : UInt32
  symbolTable : UInt32
  symbolCount : UInt32
  optionalHeaderSize : UInt16
  characteristics : UInt16
deriving DecidableEq, Inhabited

namespace CoffHeader

/-- The bytes that the header takes in the file. -/
def size : Nat := 20

/-- The header at an offset. -/
def read? (b : Bytes) (offset : Nat) : Option CoffHeader := do
  some {
    machine := ← b.u16? offset
    sectionCount := ← b.u16? (offset + 2)
    timestamp := ← b.u32? (offset + 4)
    symbolTable := ← b.u32? (offset + 8)
    symbolCount := ← b.u32? (offset + 12)
    optionalHeaderSize := ← b.u16? (offset + 16)
    characteristics := ← b.u16? (offset + 18) }

end CoffHeader

/-- Where one of the tables of an image lies once it is loaded, and how many bytes it takes. -/
structure DataDirectory where
  address : UInt32
  size : UInt32
deriving DecidableEq, Inhabited

namespace DataDirectory

/-- The bytes that a directory takes in the file. -/
def width : Nat := 8

/-- The directory at an offset. -/
def read? (b : Bytes) (offset : Nat) : Option DataDirectory := do
  some {
    address := ← b.u32? offset
    size := ← b.u32? (offset + 4) }

/-- A directory without an address or without a size stands for a table that is not there. -/
def isEmpty (d : DataDirectory) : Bool :=
  d.address == 0 || d.size == 0

/-- Whether an address lies within the table. -/
def contains (d : DataDirectory) (rva : UInt32) : Bool :=
  decide (d.address.toNat ≤ rva.toNat) && decide (rva.toNat < d.address.toNat + d.size.toNat)

end DataDirectory

/-- An entry of the section table, as it is in the file. -/
structure SectionRecord where
  name : List UInt8
  virtualSize : UInt32
  address : UInt32
  rawSize : UInt32
  rawPointer : UInt32
  relocations : UInt32
  lineNumbers : UInt32
  relocationCount : UInt16
  lineNumberCount : UInt16
  characteristics : UInt32
deriving DecidableEq, Inhabited

namespace SectionRecord

/-- The bytes that an entry takes in the file. -/
def size : Nat := 40

/-- The entry at an offset. -/
def read? (b : Bytes) (offset : Nat) : Option SectionRecord := do
  some {
    name := ← b.slice? offset 8
    virtualSize := ← b.u32? (offset + 8)
    address := ← b.u32? (offset + 12)
    rawSize := ← b.u32? (offset + 16)
    rawPointer := ← b.u32? (offset + 20)
    relocations := ← b.u32? (offset + 24)
    lineNumbers := ← b.u32? (offset + 28)
    relocationCount := ← b.u16? (offset + 32)
    lineNumberCount := ← b.u16? (offset + 34)
    characteristics := ← b.u32? (offset + 36) }

end SectionRecord

/-- An entry of the import directory table: one imported DLL. -/
structure ImportRecord where
  lookupTable : UInt32
  timestamp : UInt32
  forwarderChain : UInt32
  name : UInt32
  addressTable : UInt32
deriving DecidableEq, Inhabited

namespace ImportRecord

/-- The bytes that an entry takes in the file. -/
def size : Nat := 20

/-- The all-zero entry, which ends the table. -/
def zero : ImportRecord := ⟨0, 0, 0, 0, 0⟩

/-- Whether the entry ends the table. -/
def isNull (r : ImportRecord) : Bool := r == zero

/-- The entry at an offset. -/
def read? (b : Bytes) (offset : Nat) : Option ImportRecord := do
  some {
    lookupTable := ← b.u32? offset
    timestamp := ← b.u32? (offset + 4)
    forwarderChain := ← b.u32? (offset + 8)
    name := ← b.u32? (offset + 12)
    addressTable := ← b.u32? (offset + 16) }

end ImportRecord

/-- An entry of the delay-load directory table: one DLL that is loaded at its first use. -/
structure DelayRecord where
  attributes : UInt32
  name : UInt32
  moduleHandle : UInt32
  addressTable : UInt32
  nameTable : UInt32
  boundAddressTable : UInt32
  unloadAddressTable : UInt32
  timestamp : UInt32
deriving DecidableEq, Inhabited

namespace DelayRecord

/-- The bytes that an entry takes in the file. -/
def size : Nat := 32

/-- The all-zero entry, which ends the table. -/
def zero : DelayRecord := ⟨0, 0, 0, 0, 0, 0, 0, 0⟩

/-- Whether the entry ends the table. -/
def isNull (r : DelayRecord) : Bool := r == zero

/-- The entry at an offset. -/
def read? (b : Bytes) (offset : Nat) : Option DelayRecord := do
  some {
    attributes := ← b.u32? offset
    name := ← b.u32? (offset + 4)
    moduleHandle := ← b.u32? (offset + 8)
    addressTable := ← b.u32? (offset + 12)
    nameTable := ← b.u32? (offset + 16)
    boundAddressTable := ← b.u32? (offset + 20)
    unloadAddressTable := ← b.u32? (offset + 24)
    timestamp := ← b.u32? (offset + 28) }

/-- Whether the entry holds addresses relative to the image base, rather than absolute ones. -/
def isRelative (r : DelayRecord) : Bool :=
  r.attributes &&& 1 != 0

end DelayRecord

/-- The export directory. -/
structure ExportRecord where
  characteristics : UInt32
  timestamp : UInt32
  majorVersion : UInt16
  minorVersion : UInt16
  name : UInt32
  ordinalBase : UInt32
  addressCount : UInt32
  nameCount : UInt32
  addressTable : UInt32
  nameTable : UInt32
  ordinalTable : UInt32
deriving DecidableEq, Inhabited

namespace ExportRecord

/-- The bytes that the directory takes in the file. -/
def size : Nat := 40

/-- The directory at an offset. -/
def read? (b : Bytes) (offset : Nat) : Option ExportRecord := do
  some {
    characteristics := ← b.u32? offset
    timestamp := ← b.u32? (offset + 4)
    majorVersion := ← b.u16? (offset + 8)
    minorVersion := ← b.u16? (offset + 10)
    name := ← b.u32? (offset + 12)
    ordinalBase := ← b.u32? (offset + 16)
    addressCount := ← b.u32? (offset + 20)
    nameCount := ← b.u32? (offset + 24)
    addressTable := ← b.u32? (offset + 28)
    nameTable := ← b.u32? (offset + 32)
    ordinalTable := ← b.u32? (offset + 36) }

end ExportRecord

end DllGraph
