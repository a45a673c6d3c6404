import DllGraph.Image.Address

/-!
# Imports

The two import tables of an image: the import directory, whose DLLs are loaded with the image, and
the delay-load directory, whose DLLs are loaded at the first use of a symbol. Each is a table of
records, one per DLL, with a table of lookup entries for each record, one per symbol. All of these
tables end with an all-zero entry.

`readImports` reads as much as it can. A malformed directory empties its own half of the result, a
DLL whose name cannot be read is left out, a malformed lookup table leaves its DLL without
symbols, and a malformed entry becomes an invalid symbol. Every one of these is a fault of the
result.

## Main definitions

* `sentinelTable?`, the entries of a table before its all-zero entry;
* `LookupEntry`, the choice between an ordinal and the address of a hint and a name;
* `readImports`, the import table of an image.
-/

namespace DllGraph

/-! ### Tables with a sentinel -/

/-- The entries of a table before the first one that is null, which must be among the first `cap`
entries. -/
def sentinelTable? {α : Type} (read? : Nat → Option α) (isNull : α → Bool) (width : Nat) :
    (offset cap : Nat) → Option (List α)
  | _, 0 => none
  | offset, cap + 1 =>
    match read? offset with
    | none => none
    | some entry =>
      if isNull entry then some []
      else (sentinelTable? read? isNull width (offset + width) cap).map (entry :: ·)

/-- A directory table, without its all-zero entry, and the index of the section that holds it. The
lookup tables that it refers to must lie in that section too. -/
structure DirectoryTable (α : Type) where
  entries : List α
  index : Nat
deriving DecidableEq

/-- Find the directory table that a data directory declares, and its length. There may be none. -/
def directoryTable {α : Type} (image : Image) (slot : Nat) (kind : TableKind)
    (read? : Nat → Option α) (isNull : α → Bool) (width : Nat) :
    Except Fault (Option (DirectoryTable α)) :=
  match image.directory? slot with
  | none => .ok none
  | some directory =>
    match image.locate directory.address directory.size with
    | .error fault => .error fault
    | .ok place =>
      match sentinelTable? read? isNull width place.offset (directory.size.toNat / width) with
      | none => .error (.endless kind)
      | some entries => .ok (some ⟨entries, place.index⟩)

/-- The import directory table. -/
def importDirectory (b : Bytes) (image : Image) :
    Except Fault (Option (DirectoryTable ImportRecord)) :=
  directoryTable image 1 .importDirectory (ImportRecord.read? b) ImportRecord.isNull
    ImportRecord.size

/-- The delay-load directory table. -/
def delayDirectory (b : Bytes) (image : Image) :
    Except Fault (Option (DirectoryTable DelayRecord)) :=
  directoryTable image 13 .delayDirectory (DelayRecord.read? b) DelayRecord.isNull
    DelayRecord.size

/-! ### Symbols -/

/-- A symbol that an image imports. -/
inductive ImportedSymbol where
  /-- By its name, with the position where the name is likely to be found. -/
  | byName (hint : UInt16) (name : String)
  | byOrdinal (ordinal : UInt16)
  /-- The entry could not be decoded. -/
  | invalid (fault : Fault)
deriving DecidableEq, Inhabited

namespace ImportedSymbol

/-- The name of a symbol that is imported by name. -/
def name? : ImportedSymbol → Option String
  | byName _ name => some name
  | _ => none

/-- How a symbol is shown. -/
def label : ImportedSymbol → String
  | byName _ name => name
  | byOrdinal ordinal => s!"#{ordinal.toNat}"
  | invalid fault => "<invalid: " ++ fault.message ++ ">"

end ImportedSymbol

/-- The most entries that a lookup table may have, its all-zero entry included. -/
def maxLookupEntries : Nat := 65536

/-- The hint and the name at an address: a 16-bit number, and a string right after it. -/
def readHintName (b : Bytes) (image : Image) (rva : UInt32) : Except Fault (UInt16 × String) := do
  let place ← image.locate rva 2
  let hint ← Fault.expect (.outOfBounds rva 2) (b.u16? place.offset)
  let name ← readAsciiAt b place.host (place.offset + 2) (rva + 2) maxSymbolName
  return (hint, name)

/-- An address relative to `base`. The difference must fit an address. -/
def toRva (address base : UInt64) : Except Fault UInt32 :=
  if base ≤ address ∧ (address - base).toNat < UInt32.size then .ok (address - base).toUInt32
  else .error (.notFound address.toUInt32)

/-- An entry of an import lookup table, of 32 or 64 bits. The highest bit tells an ordinal from
the address of a hint and a name. -/
structure LookupEntry where
  value : UInt64
  is64Bit : Bool
deriving DecidableEq, Inhabited

namespace LookupEntry

/-- An entry of 32 bits. -/
def ofUInt32 (value : UInt32) : LookupEntry := ⟨value.toUInt64, false⟩

/-- An entry of 64 bits. -/
def ofUInt64 (value : UInt64) : LookupEntry := ⟨value, true⟩

/-- Whether the entry holds an ordinal. -/
def isOrdinal (e : LookupEntry) : Bool :=
  e.value &&& (if e.is64Bit then 0x8000000000000000 else 0x80000000) != 0

/-- The bits of an ordinal entry that must be clear. -/
def reservedBits (e : LookupEntry) : UInt64 :=
  if e.is64Bit then 0x7FFFFFFFFFFF0000 else 0x7FFF0000

/-- The ordinal of an entry that holds one. -/
def ordinal (e : LookupEntry) : Except Fault UInt16 :=
  if e.isOrdinal && e.value &&& e.reservedBits == 0 then .ok e.value.toUInt16
  else .error (.invalidLookupEntry e.value)

/-- The address of the hint and the name of an entry that holds one. -/
def hintNameRva (e : LookupEntry) : Except Fault UInt32 :=
  if e.isOrdinal || e.value &&& 0x7FFFFFFF80000000 != 0 then .error (.invalidLookupEntry e.value)
  else .ok e.value.toUInt32

/-- The symbol that an entry stands for, when the addresses in it are relative to `base`. Only the
delay-load tables of old linkers have a base other than zero. -/
def decodeFrom (e : LookupEntry) (b : Bytes) (image : Image) (base : UInt64) :
    Except Fault ImportedSymbol := do
  if e.isOrdinal then
    return .byOrdinal (← e.ordinal)
  else
    let address ← if base = 0 then e.hintNameRva.map UInt32.toUInt64 else pure e.value
    let (hint, name) ← readHintName b image (← toRva address base)
    return .byName hint name

/-- The symbol that an entry stands for. -/
def decode (e : LookupEntry) (b : Bytes) (image : Image) : Except Fault ImportedSymbol :=
  e.decodeFrom b image 0

/-- The entry at an offset, of the width that the image has. -/
def read? (b : Bytes) (image : Image) (offset : Nat) : Option LookupEntry :=
  if image.is64Bit then (b.u64? offset).map ofUInt64 else (b.u32? offset).map ofUInt32

/-- Whether the entry ends its table. -/
def isNull (e : LookupEntry) : Bool :=
  e.value == 0

/-- The lookup table at an address, which must lie in a given section. -/
def tableAt (b : Bytes) (image : Image) (index : Nat) (rva : UInt32) :
    Except Fault (List LookupEntry) :=
  match image.locateIn index rva with
  | .error fault => .error fault
  | .ok place =>
    let room := (place.host.rawEnd - place.offset) / image.lookupWidth
    Fault.expect (.endless .importLookup)
      (sentinelTable? (read? b image) isNull image.lookupWidth
        place.offset (min maxLookupEntries room))

end LookupEntry

/-! ### Records -/

namespace ImportRecord

/-- The name of the DLL that a record imports from. -/
def dllName (r : ImportRecord) (b : Bytes) (image : Image) : Except Fault String :=
  readAscii b image r.name maxDllName

/-- The symbols that a record imports. A record without a lookup table has them in its address
table, which holds the same entries until the image is loaded. -/
def entries (r : ImportRecord) (b : Bytes) (image : Image) (index : Nat) :
    Except Fault (List LookupEntry) :=
  let rva := if r.lookupTable ≠ 0 then r.lookupTable else r.addressTable
  if rva = 0 then .error (.endless .importLookup) else LookupEntry.tableAt b image index rva

end ImportRecord

namespace DelayRecord

/-- What the addresses of a record are relative to: nothing further, or the image base. -/
def base (r : DelayRecord) (image : Image) : UInt64 :=
  if r.isRelative then 0 else image.imageBase

/-- The name of the DLL that a record imports from. -/
def dllName (r : DelayRecord) (b : Bytes) (image : Image) : Except Fault String := do
  readAscii b image (← toRva r.name.toUInt64 (r.base image)) maxDllName

/-- The symbols that a record imports. -/
def entries (r : DelayRecord) (b : Bytes) (image : Image) (index : Nat) :
    Except Fault (List LookupEntry) := do
  if r.nameTable = 0 then throw (.endless .delayNames)
  LookupEntry.tableAt b image index (← toRva r.nameTable.toUInt64 (r.base image))

end DelayRecord

/-! ### The import table -/

/-- A DLL that an image imports from, and the symbols that it imports. -/
structure ImportedDll where
  name : String
  delayLoad : Bool
  symbols : List ImportedSymbol
deriving DecidableEq, Inhabited

/-- The DLLs that an image imports from: those of the import directory, and then those of the
delay-load directory. -/
structure ImportTable where
  dlls : List ImportedDll
deriving DecidableEq, Inhabited

/-- The number of imported symbols. -/
def ImportTable.symbolCount (t : ImportTable) : Nat :=
  t.dlls.foldr (fun dll count => dll.symbols.length + count) 0

/-- The fault of a result that is one. -/
def Fault.ofResult? {α : Type} : Except Fault α → Option Fault
  | .error fault => some fault
  | .ok _ => none

/-- The symbol that a lookup entry is listed as. -/
def ImportedSymbol.ofResult : Except Fault ImportedSymbol → ImportedSymbol
  | .ok symbol => symbol
  | .error fault => .invalid fault

/-- The symbols of a lookup table, with a fault for each entry that cannot be decoded, or the one
fault of the whole table. -/
def readSymbols (b : Bytes) (image : Image) (base : UInt64) :
    Except Fault (List LookupEntry) → Salvaged (List ImportedSymbol)
  | .error fault => ⟨[], [fault]⟩
  | .ok entries =>
    let results := entries.map (·.decodeFrom b image base)
    ⟨results.map ImportedSymbol.ofResult, results.filterMap Fault.ofResult?⟩

/-- The DLL of a record, from its name and its lookup table. -/
def readDll (b : Bytes) (image : Image) (delayLoad : Bool) (base : UInt64)
    (name : Except Fault String) (table : Except Fault (List LookupEntry)) :
    Salvaged (Option ImportedDll) :=
  match name with
  | .error fault => ⟨none, [fault]⟩
  | .ok name =>
    let symbols := readSymbols b image base table
    ⟨some ⟨name, delayLoad, symbols.value⟩, symbols.faults⟩

/-- The DLL of a record of the import directory. -/
def ImportRecord.readDll (r : ImportRecord) (b : Bytes) (image : Image) (index : Nat) :
    Salvaged (Option ImportedDll) :=
  DllGraph.readDll b image false 0 (r.dllName b image) (r.entries b image index)

/-- The DLL of a record of the delay-load directory. -/
def DelayRecord.readDll (r : DelayRecord) (b : Bytes) (image : Image) (index : Nat) :
    Salvaged (Option ImportedDll) :=
  DllGraph.readDll b image true (r.base image) (r.dllName b image) (r.entries b image index)

/-- The DLLs of a directory table, record by record. -/
def readDlls {α : Type} (read : α → Nat → Salvaged (Option ImportedDll)) :
    Except Fault (Option (DirectoryTable α)) → Salvaged (List ImportedDll)
  | .error fault => ⟨[], [fault]⟩
  | .ok none => ⟨[], []⟩
  | .ok (some table) =>
    let results := table.entries.map (read · table.index)
    ⟨results.filterMap (·.value), results.flatMap (·.faults)⟩

/-- The import table of an image. -/
def readImports (b : Bytes) (image : Image) : Salvaged ImportTable :=
  let direct := readDlls (ImportRecord.readDll · b image) (importDirectory b image)
  let delayed := readDlls (DelayRecord.readDll · b image) (delayDirectory b image)
  ⟨⟨direct.value ++ delayed.value⟩, direct.faults ++ delayed.faults⟩

end DllGraph
