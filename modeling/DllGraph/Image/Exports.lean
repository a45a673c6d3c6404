import DllGraph.BinarySearch
import DllGraph.Image.Address

/-!
# Exports

The export table of an image: a table of addresses, indexed by ordinal, and a table of names, each
of which refers to a slot of the address table. An address that lies within the export directory
itself is no code but the text of a forwarder, `OtherDll.Symbol`.

The names should ascend, so that one can be found by binary search. Whether they do is part of the
table, and a table whose names are out of order is searched from front to back.

`readExports` gives no table at all when the directory or its address table is malformed. A name
that cannot be read is left out, and a forwarder that cannot be read is empty; both are faults of
the result.

## Main definitions

* `readExports`, the export table of an image;
* `ExportTable.findByName?` and `ExportTable.findByOrdinal?`, the slot of a symbol;
* `ExportTable.listing`, the exported symbols in the order of their ordinals.
-/

namespace DllGraph

/-- What a slot of the address table holds. -/
inductive ExportTarget where
  /-- The address of code or data. -/
  | code (rva : UInt32)
  /-- The symbol of another module that stands in for this one. -/
  | forwarder (symbol : String)
  /-- Nothing; the ordinal is not exported. -/
  | empty
deriving DecidableEq, Inhabited

namespace ExportTarget

/-- Whether the slot forwards to another module. -/
def isForwarder : ExportTarget → Bool
  | forwarder _ => true
  | _ => false

/-- Whether the slot holds nothing. -/
def isEmpty : ExportTarget → Bool
  | empty => true
  | _ => false

end ExportTarget

/-- An exported name, and the slot of the address table that it refers to. -/
structure ExportName where
  name : String
  slot : UInt16
deriving DecidableEq, Inhabited

/-- The export table of an image. -/
structure ExportTable where
  dllName : Option String
  /-- The ordinal of the first slot. -/
  ordinalBase : UInt32
  addresses : Array ExportTarget
  /-- The names in the order of the file. -/
  names : Array ExportName
  /-- Whether the names ascend. -/
  namesSorted : Bool
deriving DecidableEq, Inhabited

/-- An exported symbol as it is listed. Its hint is the position of its name. -/
structure Export where
  ordinal : UInt32
  hint : Option UInt16
  name : Option String
  target : ExportTarget
deriving DecidableEq, Inhabited

namespace ExportTable

/-- Compare the name at a position with a given one. -/
def compareNameAt (t : ExportTable) (name : String) (i : Nat) : Ordering :=
  match t.names[i]? with
  | some entry => compare entry.name name
  | none => .gt

/-- The position of a name among the names. -/
def position? (t : ExportTable) (name : String) : Option Nat :=
  if t.namesSorted then binarySearch (t.compareNameAt name) t.names.size
  else t.names.findIdx? (·.name == name)

/-- The slot of a symbol that is imported by name. -/
def findByName? (t : ExportTable) (name : String) : Option Nat := do
  let entry ← t.names[← t.position? name]?
  if entry.slot.toNat < t.addresses.size then some entry.slot.toNat else none

/-- The slot of a symbol that is imported by ordinal. -/
def findByOrdinal? (t : ExportTable) (ordinal : UInt16) : Option Nat :=
  if t.ordinalBase.toNat ≤ ordinal.toNat then
    let slot := ordinal.toNat - t.ordinalBase.toNat
    match t.addresses[slot]? with
    | none => none
    | some target => if target.isEmpty then none else some slot
  else none

/-- What a slot holds. -/
def target? (t : ExportTable) (slot : Nat) : Option ExportTarget :=
  t.addresses[slot]?

/-- The number of exported symbols. -/
def count (t : ExportTable) : Nat :=
  t.addresses.toList.countP (!·.isEmpty)

/-- The number of symbols that are forwarded to another module. -/
def forwarderCount (t : ExportTable) : Nat :=
  t.addresses.toList.countP (·.isForwarder)

/-- Note a name at the slot that it refers to, unless an earlier name has it. -/
def noteName (named : Array (Option (UInt16 × String))) (entry : ExportName) (hint : Nat) :
    Array (Option (UInt16 × String)) :=
  named.modify entry.slot.toNat fun
    | none => some (UInt16.ofNat hint, entry.name)
    | some first => some first

/-- For each slot, the first name that refers to it, with the position of that name. -/
def firstNames (t : ExportTable) : Array (Option (UInt16 × String)) :=
  t.names.toList.zipIdx.foldl (fun named e => noteName named e.1 e.2)
    (Array.replicate t.addresses.size none)

/-- The symbol that a slot exports under its ordinal and its first name. A slot whose ordinal would
not fit 32 bits exports none. -/
def exportAt? (t : ExportTable) (slot : Nat) (target : ExportTarget)
    (named : Option (UInt16 × String)) : Option Export :=
  if target.isEmpty then none
  else if t.ordinalBase.toNat + slot < UInt32.size then
    some ⟨UInt32.ofNat (t.ordinalBase.toNat + slot), named.map (·.1), named.map (·.2), target⟩
  else none

/-- The exported symbols in the order of their ordinals. -/
def listing (t : ExportTable) : List Export :=
  (t.addresses.toList.zip t.firstNames.toList).zipIdx.filterMap fun e =>
    t.exportAt? e.2 e.1.1 e.1.2

end ExportTable

/-! ### Reading -/

/-- The most slots, and the most names, that an export table may have. -/
def maxExports : Nat := 65536

/-- The 32-bit words of a table at an address. An empty table may be anywhere. -/
def readWords (b : Bytes) (image : Image) (rva count : UInt32) : Except Fault (List UInt32) :=
  if count = 0 then .ok []
  else
    match image.locate rva (count * 4) with
    | .error fault => .error fault
    | .ok place =>
      Fault.expect (.outOfBounds rva (count * 4))
        (Bytes.records? b.u32? 4 place.offset count.toNat)

/-- The 16-bit words of a table at an address. An empty table may be anywhere. -/
def readHalfWords (b : Bytes) (image : Image) (rva count : UInt32) :
    Except Fault (List UInt16) :=
  if count = 0 then .ok []
  else
    match image.locate rva (count * 2) with
    | .error fault => .error fault
    | .ok place =>
      Fault.expect (.outOfBounds rva (count * 2))
        (Bytes.records? b.u16? 2 place.offset count.toNat)

/-- What is wrong with the counts of an export directory, if anything: more slots or names than a
table may have, ordinals that would not fit 32 bits, or slots without a table. -/
def ExportRecord.fault? (r : ExportRecord) : Option Fault :=
  if maxExports < r.addressCount.toNat ∨ maxExports < r.nameCount.toNat then
    some (.invalidExportTable
      (s!"{r.addressCount.toNat} addresses and {r.nameCount.toNat} names " ++
        "exceed the supported table size"))
  else if UInt32.size < r.ordinalBase.toNat + r.addressCount.toNat then
    some (.invalidExportTable
      (s!"ordinal base {r.ordinalBase.toNat} leaves no room for " ++
        s!"{r.addressCount.toNat} addresses"))
  else if r.addressCount ≠ 0 ∧ r.addressTable = 0 then
    some (.invalidExportTable "missing export address table")
  else none

/-- The export directory that a data directory declares. -/
def readExportRecord (b : Bytes) (image : Image) (directory : DataDirectory) :
    Except Fault ExportRecord := do
  let size := UInt32.ofNat ExportRecord.size
  let place ← image.locate directory.address size
  let record ← Fault.expect (.outOfBounds directory.address size)
    (ExportRecord.read? b place.offset)
  match record.fault? with
  | some fault => throw fault
  | none => return record

/-- The name that an export directory gives to its DLL, if it gives one. -/
def ExportRecord.dllName (r : ExportRecord) (b : Bytes) (image : Image) :
    Salvaged (Option String) :=
  if r.name = 0 then ⟨none, []⟩
  else
    match readAscii b image r.name maxDllName with
    | .ok name => ⟨some name, []⟩
    | .error fault => ⟨none, [fault]⟩

/-- What a slot with a given address holds. -/
def readTarget (b : Bytes) (image : Image) (directory : DataDirectory) (rva : UInt32) :
    Salvaged ExportTarget :=
  if rva = 0 then ⟨.empty, []⟩
  else if directory.contains rva then
    match readAscii b image rva maxSymbolName with
    | .ok symbol => ⟨.forwarder symbol, []⟩
    | .error fault => ⟨.forwarder "", [fault]⟩
  else ⟨.code rva, []⟩

/-- The name at an address that refers to one of `slots` slots. -/
def readName (b : Bytes) (image : Image) (slots : Nat) (rva : UInt32) (slot : UInt16) :
    Salvaged (Option ExportName) :=
  if slots ≤ slot.toNat then
    ⟨none, [.invalidExportTable
      ("name at RVA " ++ Text.hex rva.toNat ++
        s!" refers to address slot {slot.toNat} of {slots}")]⟩
  else
    match readAscii b image rva maxSymbolName with
    | .ok name => ⟨some ⟨name, slot⟩, []⟩
    | .error fault => ⟨none, [fault]⟩

/-- The names of an export table with so many slots. -/
def ExportRecord.readNames (r : ExportRecord) (b : Bytes) (image : Image) (slots : Nat) :
    Salvaged (List ExportName) :=
  match readWords b image r.nameTable r.nameCount with
  | .error fault => ⟨[], [fault]⟩
  | .ok pointers =>
    match readHalfWords b image r.ordinalTable r.nameCount with
    | .error fault => ⟨[], [fault]⟩
    | .ok ordinals =>
      let results := (pointers.zip ordinals).map fun e => readName b image slots e.1 e.2
      ⟨results.filterMap (·.value), results.flatMap (·.faults)⟩

/-- Whether no name is greater than the one after it. -/
def namesAscend : List ExportName → Bool
  | first :: second :: rest =>
    decide (first.name ≤ second.name) && namesAscend (second :: rest)
  | _ => true

/-- The export table of an image, if it has one. -/
def readExports (b : Bytes) (image : Image) : Salvaged (Option ExportTable) :=
  match image.directory? 0 with
  | none => ⟨none, []⟩
  | some directory =>
    match readExportRecord b image directory with
    | .error fault => ⟨none, [fault]⟩
    | .ok record =>
      let dllName := record.dllName b image
      match readWords b image record.addressTable record.addressCount with
      | .error fault => ⟨none, dllName.faults ++ [fault]⟩
      | .ok addresses =>
        let targets := addresses.map (readTarget b image directory)
        let names := record.readNames b image targets.length
        ⟨some {
            dllName := dllName.value
            ordinalBase := record.ordinalBase
            addresses := (targets.map (·.value)).toArray
            names := names.value.toArray
            namesSorted := namesAscend names.value },
          dllName.faults ++ targets.flatMap (·.faults) ++ names.faults⟩

end DllGraph
