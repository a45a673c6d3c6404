import DllGraph.Proofs.Image.Checked

/-!
# Reading Tables Never Stops

The readers of the import and export tables once more, with every operation checked as a machine
checks it, and the proof that no check fails (`Checked.readers_eq_ok`). What keeps
an operation within its bounds is often a check that another function has made. An address that has
been translated leaves the offset below `2 ^ 33`, and a table has no more room than the data
directory, the section or the limit on its entries gives it. The counts of an export directory have
been compared with the limit before they are multiplied.

The image need not come from a header: nothing is assumed of its sections, or of its directories.

## Main definitions

* `Checked.readImports` and `Checked.readExports`, the readers with checks.

## Main results

* `Checked.readImports_eq` and `Checked.readExports_eq`, together `Checked.readers_eq_ok` — the
  readers with checks never stop, and read what the readers without checks read.
-/

namespace DllGraph.Checked

open Guarded

variable {α : Type} {b : Bytes} {image : Image} {rva : UInt32} {width : Nat}

/-! ### Imports -/

/-- Find the directory table that a data directory declares, as `DllGraph.directoryTable` does. -/
def directoryTable (b : Bytes) (image : Image) (slot : Nat) (kind : TableKind)
    (read : Bytes → Nat → Option α) (isNull : α → Bool) (width : Nat) :
    Guarded (Option (DirectoryTable α)) :=
  match image.directory? slot with
  | none => return none
  | some directory => do
    let place ← locate image directory.address directory.size
    let cap ← div directory.size.toNat width
    let found ← (scan (readAt? b read width) isNull width place.offset 0 cap :
      Checked (Option (List α)))
    let entries ← ofResult (Fault.expect (.endless kind) found)
    return some ⟨entries, place.index⟩

/-- The lookup table at an address, which must lie in a given section, as `LookupEntry.tableAt`
reads it. -/
def lookupTable (b : Bytes) (image : Image) (index : Nat) (rva : UInt32) :
    Guarded (List LookupEntry) := do
  let place ← locateIn image index rva
  let host ← (get image.sections index : Checked Section)
  let rawEnd ← rawEnd host
  let remaining ← sub rawEnd place.offset
  let room ← div remaining image.lookupWidth
  let found ← (scan (readAt? b (LookupEntry.read? · image) image.lookupWidth) LookupEntry.isNull
    image.lookupWidth place.offset 0 (min maxLookupEntries room) :
    Checked (Option (List LookupEntry)))
  ofResult (Fault.expect (.endless .importLookup) found)

/-- The hint and the name at an address, as `DllGraph.readHintName` reads them. The address that is
reported for the name may wrap around. -/
def readHintName (b : Bytes) (image : Image) (rva : UInt32) : Guarded (UInt16 × String) := do
  let place ← locate image rva 2
  let hint ← ofResult (Fault.expect (.outOfBounds rva 2) (readAt? b Bytes.u16? 2 place.offset))
  let host ← (get image.sections place.index : Checked Section)
  let start ← add 64 place.offset 2
  let name ← readAsciiAt b host start (rva + 2) maxSymbolName
  return (hint, name)

/-- The symbol that an entry stands for, as `LookupEntry.decodeFrom` decodes it. -/
def decodeFrom (e : LookupEntry) (b : Bytes) (image : Image) (base : UInt64) :
    Guarded ImportedSymbol :=
  if e.isOrdinal then do
    let ordinal ← ofResult e.ordinal
    return .byOrdinal ordinal
  else do
    let address ← ofResult (if base = 0 then e.hintNameRva.map UInt32.toUInt64 else .ok e.value)
    let rva ← ofResult (toRva address base)
    let (hint, name) ← readHintName b image rva
    return .byName hint name

/-- The symbols that a record of the import directory imports. -/
def importEntries (r : ImportRecord) (b : Bytes) (image : Image) (index : Nat) :
    Guarded (List LookupEntry) :=
  let rva := if r.lookupTable ≠ 0 then r.lookupTable else r.addressTable
  if rva = 0 then throw (.endless .importLookup) else lookupTable b image index rva

/-- The name of the DLL that a record of the delay-load directory imports from. -/
def delayName (r : DelayRecord) (b : Bytes) (image : Image) : Guarded String := do
  let rva ← ofResult (toRva r.name.toUInt64 (r.base image))
  readAscii b image rva maxDllName

/-- The symbols that a record of the delay-load directory imports. -/
def delayEntries (r : DelayRecord) (b : Bytes) (image : Image) (index : Nat) :
    Guarded (List LookupEntry) :=
  if r.nameTable = 0 then throw (.endless .delayNames)
  else do
    let rva ← ofResult (toRva r.nameTable.toUInt64 (r.base image))
    lookupTable b image index rva

/-- The symbols of a lookup table, as `DllGraph.readSymbols` reads them. -/
def readSymbols (b : Bytes) (image : Image) (base : UInt64) :
    Except Fault (List LookupEntry) → Checked (Salvaged (List ImportedSymbol))
  | .error fault => return ⟨[], [fault]⟩
  | .ok entries => do
    let results ← entries.mapM fun e => (decodeFrom e b image base).run
    return ⟨results.map ImportedSymbol.ofResult, results.filterMap Fault.ofResult?⟩

/-- The DLL of a record. Its lookup table is read once its name has been. -/
def readDll (b : Bytes) (image : Image) (delayLoad : Bool) (base : UInt64) (name : Guarded String)
    (table : Guarded (List LookupEntry)) : Checked (Salvaged (Option ImportedDll)) := do
  match ← name.run with
  | .error fault => return ⟨none, [fault]⟩
  | .ok name =>
    let symbols ← readSymbols b image base (← table.run)
    return ⟨some ⟨name, delayLoad, symbols.value⟩, symbols.faults⟩

/-- The DLLs of a directory table, record by record. -/
def readDlls (read : α → Nat → Checked (Salvaged (Option ImportedDll)))
    (table : Guarded (Option (DirectoryTable α))) : Checked (Salvaged (List ImportedDll)) := do
  match ← table.run with
  | .error fault => return ⟨[], [fault]⟩
  | .ok none => return ⟨[], []⟩
  | .ok (some table) =>
    let results ← table.entries.mapM (read · table.index)
    return ⟨results.filterMap (·.value), results.flatMap (·.faults)⟩

/-- The import table of an image, read with every operation checked. -/
def readImports (b : Bytes) (image : Image) : Checked (Salvaged ImportTable) := do
  let direct ← readDlls
    (fun r index => readDll b image false 0 (readAscii b image r.name maxDllName)
      (importEntries r b image index))
    (directoryTable b image 1 .importDirectory ImportRecord.read? ImportRecord.isNull
      ImportRecord.size)
  let delayed ← readDlls
    (fun r index => readDll b image true (r.base image) (delayName r b image)
      (delayEntries r b image index))
    (directoryTable b image 13 .delayDirectory DelayRecord.read? DelayRecord.isNull
      DelayRecord.size)
  return ⟨⟨direct.value ++ delayed.value⟩, direct.faults ++ delayed.faults⟩

/-- Finding a directory table never stops, however long its directory is said to be. -/
theorem directoryTable_eq {read : Bytes → Nat → Option α} (hread : Bytes.FixedWidth read width)
    (hwidth : 0 < width) (hb : b.size < 2 ^ 63) (slot : Nat) (kind : TableKind)
    (isNull : α → Bool) : directoryTable b image slot kind read isNull width =
      ofResult (DllGraph.directoryTable image slot kind (read b) isNull width) := by
  rw [directoryTable, DllGraph.directoryTable]
  cases image.directory? slot with
  | none => rfl
  | some d =>
    dsimp only
    rw [locate_eq]
    cases hplace : image.locate d.address d.size with
    | error fault => rfl
    | ok place =>
      have hoffset := offset_lt (Image.fits_of_locate hplace)
      have hcap : d.size.toNat / width * width ≤ d.size.toNat := Nat.div_mul_le_self ..
      rw [ofResult_map_ok_bind, Located.ofLocation, div_eq_ok hwidth, liftM_ok_bind,
        readAt?_eq hread hwidth hb, scan_eq (by rw [Nat.zero_add]; dsimp only; omega),
        liftM_ok_bind,
        Nat.zero_mul, Nat.add_zero]
      dsimp only
      cases sentinelTable? (read b) isNull width place.offset (d.size.toNat / width) <;> rfl

/-- Finding a lookup table never stops: what has been located begins before its section ends. -/
theorem lookupTable_eq (hb : b.size < 2 ^ 63) (index : Nat) (rva : UInt32) :
    lookupTable b image index rva = ofResult (LookupEntry.tableAt b image index rva) := by
  have hread := LookupEntry.fixedWidth_read? image
  rw [lookupTable, LookupEntry.tableAt, locateIn_eq]
  cases hplace : image.locateIn index rva with
  | error fault => rfl
  | ok place =>
    have hfits := Image.fits_of_locateIn hplace
    have hindex : place.index = index := (Image.locateIn_eq_ok_iff.1 hplace).2.1
    have hoffset := offset_lt hfits
    have hle := hfits.le_rawEnd
    have hend := rawEnd_lt place.host
    have hcap : min maxLookupEntries ((place.host.rawEnd - place.offset) / image.lookupWidth) *
        image.lookupWidth ≤ place.host.rawEnd - place.offset :=
      Nat.le_trans (Nat.mul_le_mul_right _ (Nat.min_le_right ..)) (Nat.div_mul_le_self ..)
    rw [ofResult_map_ok_bind, Located.ofLocation, ← hindex, get_index_eq_ok hfits, liftM_ok_bind,
      rawEnd_eq, liftM_ok_bind]
    dsimp only
    rw [sub_eq_ok (by omega), liftM_ok_bind, div_eq_ok Image.lookupWidth_pos, liftM_ok_bind,
      readAt?_eq hread Image.lookupWidth_pos hb, scan_eq (by rw [Nat.zero_add]; omega),
      liftM_ok_bind, Nat.zero_mul, Nat.add_zero]

/-- Reading a hint and a name never stops: the name begins two bytes after an offset that has been
located. -/
theorem readHintName_eq (hb : b.size < 2 ^ 63) (rva : UInt32) :
    readHintName b image rva = ofResult (DllGraph.readHintName b image rva) := by
  rw [readHintName, DllGraph.readHintName, locate_eq]
  cases hplace : image.locate rva 2 with
  | error fault => rfl
  | ok place =>
    have hfits := Image.fits_of_locate hplace
    have hoffset := offset_lt hfits
    rw [ofResult_map_ok_bind, Located.ofLocation,
      readAt?_eq Bytes.fixedWidth_u16? (by decide) hb]
    rw [ok_bind]
    dsimp only
    cases b.u16? place.offset with
    | none => rfl
    | some hint =>
      rw [expect_some_bind, get_index_eq_ok hfits, liftM_ok_bind, add_eq_ok (by omega),
        liftM_ok_bind, readAsciiAt_eq (by omega)]
      cases DllGraph.readAsciiAt b place.host (place.offset + 2) (rva + 2) maxSymbolName <;> rfl

/-- Decoding an entry of a lookup table never stops. -/
theorem decodeFrom_eq (hb : b.size < 2 ^ 63) (e : LookupEntry) (base : UInt64) :
    decodeFrom e b image base = ofResult (e.decodeFrom b image base) := by
  rw [decodeFrom, LookupEntry.decodeFrom]
  split
  · cases e.ordinal <;> rfl
  · -- Either way the address is made relative to the base, and leads to the hint and the name.
    have htail : ∀ address, (do
        let rva ← ofResult (toRva address base)
        let (hint, name) ← readHintName b image rva
        return .byName hint name : Guarded ImportedSymbol) = ofResult do
          let (hint, name) ← DllGraph.readHintName b image (← toRva address base)
          return .byName hint name := by
      intro address
      cases toRva address base with
      | error fault => rfl
      | ok rva =>
        rw [ofResult_ok_bind, readHintName_eq hb, ok_bind]
        cases DllGraph.readHintName b image rva <;> rfl
    dsimp only
    by_cases hbase : base = 0
    · rw [if_pos hbase, if_pos hbase]
      cases e.hintNameRva.map UInt32.toUInt64 with
      | error fault => rfl
      | ok address => exact htail address
    · rw [if_neg hbase, if_neg hbase]
      exact htail e.value

/-- Finding the entries of an import record never stops, in whichever of its two tables they are. -/
theorem importEntries_eq (hb : b.size < 2 ^ 63) (r : ImportRecord) (index : Nat) :
    importEntries r b image index = ofResult (r.entries b image index) := by
  rw [importEntries, ImportRecord.entries]
  simp only [lookupTable_eq hb]
  generalize (if r.lookupTable ≠ 0 then r.lookupTable else r.addressTable) = rva
  split <;> rfl

/-- Finding the name in a delay-load record never stops. -/
theorem delayName_eq (r : DelayRecord) :
    delayName r b image = ofResult (r.dllName b image) := by
  rw [delayName, DelayRecord.dllName]
  cases toRva r.name.toUInt64 (r.base image) with
  | error fault => rfl
  | ok rva => exact readAscii_eq b image rva maxDllName

/-- Finding the entries of a delay-load record never stops. -/
theorem delayEntries_eq (hb : b.size < 2 ^ 63) (r : DelayRecord) (index : Nat) :
    delayEntries r b image index = ofResult (r.entries b image index) := by
  rw [delayEntries, DelayRecord.entries]
  split
  · rfl
  · cases toRva r.nameTable.toUInt64 (r.base image) with
    | error fault => rfl
    | ok rva => exact lookupTable_eq hb index rva

/-- Reading the symbols of a lookup table never stops. -/
theorem readSymbols_eq (hb : b.size < 2 ^ 63) (base : UInt64)
    (table : Except Fault (List LookupEntry)) :
    readSymbols b image base table = .ok (DllGraph.readSymbols b image base table) := by
  cases table with
  | error fault => rfl
  | ok entries =>
    have hdecode : ∀ e : LookupEntry,
        (decodeFrom e b image base).run = .ok (e.decodeFrom b image base) := fun e => by
      rw [decodeFrom_eq hb, run_ofResult]
    rw [readSymbols, mapM_eq_ok hdecode, ok_bind]
    rfl

/-- Reading what is imported from a DLL never stops, whether its name and its table can be read or
not. -/
theorem readDll_eq (hb : b.size < 2 ^ 63) (delayLoad : Bool) (base : UInt64)
    (name : Except Fault String) (table : Except Fault (List LookupEntry)) :
    readDll b image delayLoad base (ofResult name) (ofResult table) =
      .ok (DllGraph.readDll b image delayLoad base name table) := by
  rw [readDll, run_ofResult, run_ofResult, ok_bind]
  cases name with
  | error fault => rfl
  | ok name =>
    dsimp only
    rw [ok_bind, readSymbols_eq hb, ok_bind]
    rfl

/-- Reading the DLLs of a directory table never stops if reading none of its records does. -/
theorem readDlls_eq {read : α → Nat → Checked (Salvaged (Option ImportedDll))}
    (read' : α → Nat → Salvaged (Option ImportedDll))
    (h : ∀ a index, read a index = .ok (read' a index))
    (table : Except Fault (Option (DirectoryTable α))) :
    readDlls read (ofResult table) = .ok (DllGraph.readDlls read' table) := by
  rw [readDlls, run_ofResult, ok_bind]
  cases table with
  | error fault => rfl
  | ok table =>
    cases table with
    | none => rfl
    | some table =>
      dsimp only
      rw [mapM_eq_ok (h · table.index), ok_bind]
      rfl

/-- Reading the import table does not stop. -/
theorem readImports_eq (hb : b.size < 2 ^ 63) (image : Image) :
    readImports b image = .ok (DllGraph.readImports b image) := by
  rw [readImports, directoryTable_eq ImportRecord.fixedWidth_read? (by decide) hb,
    readDlls_eq (ImportRecord.readDll · b image) ?_, ok_bind,
    directoryTable_eq DelayRecord.fixedWidth_read? (by decide) hb,
    readDlls_eq (DelayRecord.readDll · b image) ?_, ok_bind]
  · rfl
  · intro r index
    rw [delayName_eq, delayEntries_eq hb, readDll_eq hb]
    rfl
  · intro r index
    rw [readAscii_eq b image r.name maxDllName, importEntries_eq hb, readDll_eq hb]
    rfl

/-! ### Exports -/

/-- The words of a table at an address, as `DllGraph.readWords` and `DllGraph.readHalfWords` read
them. Their size is a product of 32 bits, which is taken again for each word, for the fault that it
would be. -/
def readRow (b : Bytes) (image : Image) (read : Bytes → Nat → Option α) (width : Nat)
    (rva count : UInt32) : Guarded (List α) :=
  if count = 0 then return []
  else do
    let size ← mul 32 count.toNat width
    let place ← locate image rva (UInt32.ofNat size)
    let fault : Checked Fault := do
      let size ← mul 32 count.toNat width
      return .outOfBounds rva (UInt32.ofNat size)
    row fault (readAt? b read width) width place.offset 0 count.toNat

/-- What is wrong with the counts of an export directory, as `ExportRecord.fault?` says. The
ordinals are counted in 64 bits. -/
def countFault? (r : ExportRecord) : Checked (Option Fault) :=
  if maxExports < r.addressCount.toNat ∨ maxExports < r.nameCount.toNat then return r.fault?
  else do
    let stop ← add 64 r.ordinalBase.toNat r.addressCount.toNat
    let limit ← add 64 0xFFFFFFFF 1
    if limit < stop ∨ (r.addressCount ≠ 0 ∧ r.addressTable = 0) then return r.fault?
    else return none

/-- The export directory that a data directory declares. -/
def readExportRecord (b : Bytes) (image : Image) (directory : DataDirectory) :
    Guarded ExportRecord := do
  let size := UInt32.ofNat ExportRecord.size
  let place ← locate image directory.address size
  let record ← ofResult (Fault.expect (.outOfBounds directory.address size)
    (readAt? b ExportRecord.read? ExportRecord.size place.offset))
  let fault ← (countFault? record : Checked (Option Fault))
  match fault with
  | some fault => throw fault
  | none => return record

/-- The name that an export directory gives to its DLL. -/
def exportName (r : ExportRecord) (b : Bytes) (image : Image) :
    Checked (Salvaged (Option String)) :=
  if r.name = 0 then return ⟨none, []⟩
  else do
    match ← (readAscii b image r.name maxDllName).run with
    | .ok name => return ⟨some name, []⟩
    | .error fault => return ⟨none, [fault]⟩

/-- Whether an address lies within a table. The end of the table is only asked for if the address
does not come before it. -/
def contains (d : DataDirectory) (rva : UInt32) : Checked Bool :=
  if d.address.toNat ≤ rva.toNat then do
    let stop ← add 64 d.address.toNat d.size.toNat
    return decide (rva.toNat < stop)
  else return false

/-- What a slot with a given address holds. -/
def readTarget (b : Bytes) (image : Image) (directory : DataDirectory) (rva : UInt32) :
    Checked (Salvaged ExportTarget) :=
  if rva = 0 then return ⟨.empty, []⟩
  else do
    if ← contains directory rva then
      match ← (readAscii b image rva maxSymbolName).run with
      | .ok symbol => return ⟨.forwarder symbol, []⟩
      | .error fault => return ⟨.forwarder "", [fault]⟩
    else return ⟨.code rva, []⟩

/-- The name at an address. For a slot that is not there, nothing is read. -/
def readName (b : Bytes) (image : Image) (slots : Nat) (rva : UInt32) (slot : UInt16) :
    Checked (Salvaged (Option ExportName)) :=
  if slots ≤ slot.toNat then return DllGraph.readName b image slots rva slot
  else do
    match ← (readAscii b image rva maxSymbolName).run with
    | .ok name => return ⟨some ⟨name, slot⟩, []⟩
    | .error fault => return ⟨none, [fault]⟩

/-- The names of an export table with so many slots. -/
def readNames (r : ExportRecord) (b : Bytes) (image : Image) (slots : Nat) :
    Checked (Salvaged (List ExportName)) := do
  match ← (readRow b image Bytes.u32? 4 r.nameTable r.nameCount).run with
  | .error fault => return ⟨[], [fault]⟩
  | .ok pointers =>
    match ← (readRow b image Bytes.u16? 2 r.ordinalTable r.nameCount).run with
    | .error fault => return ⟨[], [fault]⟩
    | .ok ordinals =>
      let results ← (pointers.zip ordinals).mapM fun e => readName b image slots e.1 e.2
      return ⟨results.filterMap (·.value), results.flatMap (·.faults)⟩

/-- Each element of a list together with the one after it. -/
def windows : List α → List (List α)
  | first :: second :: rest => [first, second] :: windows (second :: rest)
  | _ => []

/-- Whether the first name of each window is not greater than the second one. -/
def windowsAscend : List (List ExportName) → Checked Bool
  | [] => return true
  | window :: rest => do
    let first ← get window 0
    let second ← get window 1
    if first.name ≤ second.name then windowsAscend rest else return false

/-- The export table of an image, read with every operation checked. -/
def readExports (b : Bytes) (image : Image) : Checked (Salvaged (Option ExportTable)) :=
  match image.directory? 0 with
  | none => return ⟨none, []⟩
  | some directory => do
    match ← (readExportRecord b image directory).run with
    | .error fault => return ⟨none, [fault]⟩
    | .ok record =>
      let dllName ← exportName record b image
      match ← (readRow b image Bytes.u32? 4 record.addressTable record.addressCount).run with
      | .error fault => return ⟨none, dllName.faults ++ [fault]⟩
      | .ok addresses =>
        let targets ← addresses.mapM (readTarget b image directory)
        let names ← readNames record b image targets.length
        let namesSorted ← windowsAscend (windows names.value)
        return ⟨some {
            dllName := dllName.value
            ordinalBase := record.ordinalBase
            addresses := (targets.map (·.value)).toArray
            names := names.value.toArray
            namesSorted },
          dllName.faults ++ targets.flatMap (·.faults) ++ names.faults⟩

/-- A table whose count has been accepted is read without stopping. -/
theorem readRow_eq {read : Bytes → Nat → Option α} {count : UInt32}
    (hread : Bytes.FixedWidth read width) (hwidth : 0 < width) (hle : width ≤ 4)
    (hb : b.size < 2 ^ 63) (hcount : count.toNat ≤ maxExports) (rva : UInt32) :
    readRow b image read width rva count = ofResult
      (if count = 0 then .ok []
      else image.locate rva (UInt32.ofNat (count.toNat * width)) >>= fun place =>
        Fault.expect (.outOfBounds rva (UInt32.ofNat (count.toNat * width)))
          (Bytes.records? (read b) width place.offset count.toNat)) := by
  rw [maxExports] at hcount
  have hsize : count.toNat * width < 2 ^ 32 :=
    Nat.lt_of_le_of_lt (Nat.mul_le_mul hcount hle) (by decide)
  rw [readRow]
  split
  · rfl
  · rw [mul_eq_ok hsize, liftM_ok_bind, locate_eq]
    cases hplace : image.locate rva (UInt32.ofNat (count.toNat * width)) with
    | error fault => rfl
    | ok place =>
      have hoffset := offset_lt (Image.fits_of_locate hplace)
      rw [UInt32.toNat_ofNat_of_lt' hsize] at hoffset
      rw [ofResult_map_ok_bind, ok_bind, ok_bind, readAt?_eq hread hwidth hb]
      dsimp only [Located.ofLocation]
      exact (row_eq (by rw [Nat.zero_add]; omega)).trans (by rw [Nat.zero_mul, Nat.add_zero])

/-- Reading a table of words never stops if it has no more of them than an export table may have. -/
theorem readWords_eq (hb : b.size < 2 ^ 63) {count : UInt32} (hcount : count.toNat ≤ maxExports)
    (rva : UInt32) :
    readRow b image Bytes.u32? 4 rva count = ofResult (readWords b image rva count) := by
  have hproduct : count * 4 = UInt32.ofNat (count.toNat * 4) := by
    rw [UInt32.ofNat_mul, UInt32.ofNat_toNat]
    rfl
  rw [readRow_eq Bytes.fixedWidth_u32? (by decide) (by decide) hb hcount, readWords, hproduct]
  cases image.locate rva (UInt32.ofNat (count.toNat * 4)) <;> rfl

/-- Reading a table of half words never stops if it has no more of them than an export table may
have. -/
theorem readHalfWords_eq (hb : b.size < 2 ^ 63) {count : UInt32}
    (hcount : count.toNat ≤ maxExports) (rva : UInt32) :
    readRow b image Bytes.u16? 2 rva count = ofResult (readHalfWords b image rva count) := by
  have hproduct : count * 2 = UInt32.ofNat (count.toNat * 2) := by
    rw [UInt32.ofNat_mul, UInt32.ofNat_toNat]
    rfl
  rw [readRow_eq Bytes.fixedWidth_u16? (by decide) (by decide) hb hcount, readHalfWords, hproduct]
  cases image.locate rva (UInt32.ofNat (count.toNat * 2)) <;> rfl

/-- Checking the counts of an export directory never stops. -/
theorem countFault?_eq (r : ExportRecord) : countFault? r = .ok r.fault? := by
  have hbase := r.ordinalBase.toNat_lt_size
  have haddresses := r.addressCount.toNat_lt_size
  rw [UInt32.size] at hbase haddresses
  rw [countFault?]
  split
  · rfl
  · next hcounts =>
    rw [add_eq_ok (by omega), ok_bind, add_eq_ok (by decide), ok_bind]
    split
    · rfl
    · next hfits =>
      rw [not_or] at hfits
      rw [ExportRecord.fault?, if_neg hcounts, if_neg (by rw [UInt32.size]; exact hfits.1),
        if_neg hfits.2]
      rfl

/-- Reading the export directory never stops. -/
theorem readExportRecord_eq (hb : b.size < 2 ^ 63) (directory : DataDirectory) :
    readExportRecord b image directory =
      ofResult (DllGraph.readExportRecord b image directory) := by
  rw [readExportRecord, DllGraph.readExportRecord, locate_eq]
  cases image.locate directory.address (UInt32.ofNat ExportRecord.size) with
  | error fault => rfl
  | ok place =>
    rw [ofResult_map_ok_bind, ok_bind,
      readAt?_eq ExportRecord.fixedWidth_read? (by decide) hb]
    dsimp only [Located.ofLocation]
    cases ExportRecord.read? b place.offset with
    | none => rfl
    | some record =>
      rw [expect_some_bind, countFault?_eq, liftM_ok_bind]
      dsimp only [Fault.expect]
      rw [ok_bind]
      cases record.fault? <;> rfl

/-- Reading the name in an export directory never stops. -/
theorem exportName_eq (r : ExportRecord) : exportName r b image = .ok (r.dllName b image) := by
  rw [exportName, ExportRecord.dllName]
  split
  · rfl
  · rw [readAscii_eq b image r.name maxDllName, run_ofResult, ok_bind]
    cases DllGraph.readAscii b image r.name maxDllName <;> rfl

/-- Comparing an address with the end of a directory never stops, although the end may be past all
addresses. -/
theorem contains_eq (d : DataDirectory) (rva : UInt32) : contains d rva = .ok (d.contains rva) := by
  have haddress := d.address.toNat_lt_size
  have hsize := d.size.toNat_lt_size
  rw [UInt32.size] at haddress hsize
  rw [contains, DataDirectory.contains]
  split
  · next hle =>
    rw [add_eq_ok (by omega), ok_bind, decide_eq_true hle, Bool.true_and]
    rfl
  · next hlt =>
    rw [decide_eq_false hlt, Bool.false_and]
    rfl

/-- Reading what a slot holds never stops, be it code or a forwarder. -/
theorem readTarget_eq (directory : DataDirectory) (rva : UInt32) :
    readTarget b image directory rva = .ok (DllGraph.readTarget b image directory rva) := by
  rw [readTarget, DllGraph.readTarget]
  split
  · rfl
  · rw [contains_eq, ok_bind]
    split
    · rw [readAscii_eq b image rva maxSymbolName, run_ofResult, ok_bind]
      cases DllGraph.readAscii b image rva maxSymbolName <;> rfl
    · rfl

/-- Reading an exported name never stops. -/
theorem readName_eq (slots : Nat) (rva : UInt32) (slot : UInt16) :
    readName b image slots rva slot = .ok (DllGraph.readName b image slots rva slot) := by
  rw [readName]
  split
  · rfl
  · next hslot =>
    rw [DllGraph.readName, if_neg hslot, readAscii_eq b image rva maxSymbolName, run_ofResult,
      ok_bind]
    cases DllGraph.readAscii b image rva maxSymbolName <;> rfl

/-- Reading the exported names never stops if there are no more of them than an export table may
have. -/
theorem readNames_eq (hb : b.size < 2 ^ 63) {r : ExportRecord}
    (hcount : r.nameCount.toNat ≤ maxExports) (slots : Nat) :
    readNames r b image slots = .ok (r.readNames b image slots) := by
  rw [readNames, ExportRecord.readNames, readWords_eq hb hcount, run_ofResult, ok_bind]
  cases readWords b image r.nameTable r.nameCount with
  | error fault => rfl
  | ok pointers =>
    dsimp only
    rw [readHalfWords_eq hb hcount, run_ofResult, ok_bind]
    cases readHalfWords b image r.ordinalTable r.nameCount with
    | error fault => rfl
    | ok ordinals =>
      have hread : ∀ e : UInt32 × UInt16, readName b image slots e.1 e.2 =
          .ok (DllGraph.readName b image slots e.1 e.2) := fun e => readName_eq slots e.1 e.2
      dsimp only
      rw [mapM_eq_ok hread, ok_bind]
      rfl

/-- A window has two elements. -/
theorem windowsAscend_eq (names : List ExportName) :
    windowsAscend (windows names) = .ok (namesAscend names) := by
  induction names with
  | nil => rfl
  | cons first rest ih =>
    cases rest with
    | nil => rfl
    | cons second rest =>
      rw [windows, windowsAscend, get_eq_ok (a := first) rfl, ok_bind, get_eq_ok (a := second) rfl,
        ok_bind, ih, namesAscend]
      by_cases hle : first.name ≤ second.name
      · rw [if_pos hle, decide_eq_true hle, Bool.true_and]
      · rw [if_neg hle, decide_eq_false hle, Bool.false_and]
        rfl

/-- Reading the export table does not stop. -/
theorem readExports_eq (hb : b.size < 2 ^ 63) (image : Image) :
    readExports b image = .ok (DllGraph.readExports b image) := by
  rw [readExports, DllGraph.readExports]
  cases image.directory? 0 with
  | none => rfl
  | some directory =>
    dsimp only
    rw [readExportRecord_eq hb, run_ofResult, ok_bind]
    cases hrecord : DllGraph.readExportRecord b image directory with
    | error fault => rfl
    | ok record =>
      -- The counts are multiplied only once they have been accepted.
      obtain ⟨haddresses, hnames⟩ := Image.counts_le_of_readExportRecord hrecord
      dsimp only
      rw [exportName_eq, ok_bind, readWords_eq hb haddresses, run_ofResult, ok_bind]
      cases readWords b image record.addressTable record.addressCount with
      | error fault => rfl
      | ok addresses =>
        dsimp only
        rw [mapM_eq_ok (readTarget_eq directory), ok_bind, readNames_eq hb hnames, ok_bind,
          windowsAscend_eq, ok_bind]
        rfl

/-- Whatever the bytes of a file are, and whatever its image says of its sections and directories,
reading the import table and the export table never stops: every index is that of an element, every
sum and product fits its word, no difference is negative and no divisor zero. What is read is what
the readers without checks read. -/
theorem readers_eq_ok (hb : b.size < 2 ^ 63) (image : Image) :
    readImports b image = .ok (DllGraph.readImports b image) ∧
      readExports b image = .ok (DllGraph.readExports b image) :=
  ⟨readImports_eq hb image, readExports_eq hb image⟩

/-- An image that no header describes. Its sections overlap and end past all addresses, the second
one is said to begin where a file can hardly reach, and its directories are as long as can be. -/
def wildImage : Image where
  is64Bit := true
  machine := 0
  characteristics := 0
  timestamp := 0
  imageBase := 0xFFFFFFFFFFFFFFFF
  subsystem := 0
  directories := [⟨0x1054, 0xFFFFFFFF⟩, ⟨0x1000, 0xFFFFFFFE⟩]
  sections := [⟨"", 0x1000, 0xFFFFFFFF, 0, 0xFFFFFFFF, 0⟩,
    ⟨"", 0x800, 0xFFFFFFFF, 0xFFFFFFFF, 0xFFFFFFFF, 0⟩]

/-- A file that has the tables of the image, one after the other. -/
def wildFile : Bytes := ⟨#[
  -- the import directory, which a record of zeros ends
  0x28, 0x10, 0, 0, 0, 0, 0, 0, 0, 0, 0, 0, 0x4C, 0x10, 0, 0, 0x28, 0x10, 0, 0,
  0, 0, 0, 0, 0, 0, 0, 0, 0, 0, 0, 0, 0, 0, 0, 0, 0, 0, 0, 0,
  -- its lookup table: an ordinal, a name, and a name that is in the second section
  7, 0, 0, 0, 0, 0, 0, 0x80, 0x48, 0x10, 0, 0, 0, 0, 0, 0,
  0, 9, 0, 0, 0, 0, 0, 0, 0, 0, 0, 0, 0, 0, 0, 0,
  -- the hint and the name `f`, and the name `b.dll`
  1, 0, 0x66, 0, 0x62, 0x2E, 0x64, 0x6C, 0x6C, 0, 0, 0,
  -- the export directory
  0, 0, 0, 0, 0, 0, 0, 0, 0, 0, 0, 0, 0x4C, 0x10, 0, 0, 1, 0, 0, 0,
  2, 0, 0, 0, 1, 0, 0, 0, 0x7C, 0x10, 0, 0, 0x84, 0x10, 0, 0, 0x88, 0x10, 0, 0,
  -- its two addresses, its name, the slot of the name, and the forwarder `b.f`
  0, 0x10, 0, 0, 0x8C, 0x10, 0, 0, 0x4A, 0x10, 0, 0, 1, 0, 0, 0, 0x62, 0x2E, 0x66, 0]⟩

/-- All of the tables are read to their ends, and the one name that is in the second section is a
fault and no stop, although its offset does not fit 32 bits. -/
theorem readers_eq_ok_wild :
    readImports wildFile wildImage = .ok ⟨⟨[⟨"b.dll", false,
        [.byOrdinal 7, .byName 1 "f", .invalid (.outOfBounds 0x900 2)]⟩]⟩, [.outOfBounds 0x900 2]⟩ ∧
      readExports wildFile wildImage = .ok ⟨some
        { dllName := some "b.dll", ordinalBase := 1, addresses := #[.code 0x1000, .forwarder "b.f"],
          names := #[⟨"f", 1⟩], namesSorted := true }, []⟩ := by
  obtain ⟨himports, hexports⟩ := readers_eq_ok (b := wildFile) (by decide +kernel) wildImage
  rw [himports, hexports]
  exact ⟨congrArg Except.ok (by decide +kernel), congrArg Except.ok (by decide +kernel)⟩

end DllGraph.Checked
