import DllGraph.Proofs.Exports
import DllGraph.Proofs.Image.Address
import DllGraph.Proofs.Image.Text
import Mathlib.Data.List.Forall2

/-!
# Accounting for Faults

The readers of the import and the export tables go on after a fault, and give what is left. This
module proves that nothing gets lost on the way without a fault, and that no fault is counted twice.

For the imports this is one statement about some records and what has been read of them
(`ImportsAccountFor`). It holds of a single record, and it adds up: if two lists of records are
accounted for, then so are both of them together.

## Main definitions

* `DllRecord`, a record of either import directory, and `DllRecord.ListedAs`, the DLL that it is
  listed as;
* `ImportsAccountFor`, the DLLs and the faults that account for some records;
* `ExportsAccountFor`, the tables and the faults that account for an export directory.

## Main results

* `importsAccountFor_readImports` — the import table accounts for the records of both directories;
* `exportsAccountFor_readExports` — the export table accounts for its directory;
* `accountFor_readImports_and_readExports` — so nothing is dropped silently.
-/

namespace DllGraph

variable {b : Bytes} {image : Image}

/-! ### Symbols -/

/-- What is wrong with a symbol, if it is invalid. -/
def ImportedSymbol.fault? : ImportedSymbol → Option Fault
  | invalid fault => some fault
  | _ => none

/-- What is wrong with the invalid symbols of some DLLs, in order. -/
def invalidFaults (dlls : List ImportedDll) : List Fault :=
  (dlls.flatMap (·.symbols)).filterMap ImportedSymbol.fault?

/-- The faults of the symbols of two lists of DLLs are those of the first and of the second. -/
theorem invalidFaults_append (dlls dlls' : List ImportedDll) :
    invalidFaults (dlls ++ dlls') = invalidFaults dlls ++ invalidFaults dlls' := by
  rw [invalidFaults, List.flatMap_append, List.filterMap_append]
  rfl

/-- A lookup entry is listed as the symbol that it stands for, or else as an invalid symbol, which
keeps what is wrong with the entry. -/
inductive LookupEntry.ListedAs (b : Bytes) (image : Image) (base : UInt64) (e : LookupEntry) :
    ImportedSymbol → Prop
  | decoded {symbol : ImportedSymbol} : e.decodeFrom b image base = .ok symbol →
      ListedAs b image base e symbol
  | invalid {fault : Fault} : e.decodeFrom b image base = .error fault →
      ListedAs b image base e (.invalid fault)

namespace LookupEntry

variable {e : LookupEntry} {base : UInt64} {symbol symbol' : ImportedSymbol}

/-- There is nothing wrong with a symbol that an entry stands for. -/
theorem fault?_of_decodeFrom (h : e.decodeFrom b image base = .ok symbol) :
    symbol.fault? = none := by
  have hname : ∀ address, (toRva address base >>= fun rva => readHintName b image rva >>=
      fun found => pure (.byName found.1 found.2)) = .ok symbol → symbol.fault? = none := by
    intro address h
    obtain ⟨rva, -, h⟩ := Fault.bind_eq_ok_iff.1 h
    obtain ⟨⟨hint, name⟩, -, h⟩ := Fault.bind_eq_ok_iff.1 h
    cases h
    rfl
  rw [decodeFrom] at h
  split at h
  · obtain ⟨ordinal, -, h⟩ := Fault.bind_eq_ok_iff.1 h
    cases h
    rfl
  · dsimp only at h
    split at h
    · obtain ⟨address, -, h⟩ := Fault.bind_eq_ok_iff.1 h
      exact hname address h
    · exact hname e.value h

/-- An entry is listed as what it was decoded to. -/
theorem listedAs_ofResult (e : LookupEntry) :
    e.ListedAs b image base (.ofResult (e.decodeFrom b image base)) := by
  cases h : e.decodeFrom b image base with
  | error fault => exact .invalid h
  | ok symbol => exact .decoded h

/-- An entry is listed as one symbol only. -/
theorem ListedAs.unique (h : e.ListedAs b image base symbol)
    (h' : e.ListedAs b image base symbol') : symbol = symbol' := by
  cases h with
  | decoded h =>
    cases h' with
    | decoded h' => exact Except.ok.inj (h.symm.trans h')
    | invalid h' =>
      rw [h] at h'
      cases h'
  | invalid h =>
    cases h' with
    | decoded h' =>
      rw [h] at h'
      cases h'
    | invalid h' => rw [Except.error.inj (h.symm.trans h')]

/-- An entry has a fault if and only if it is listed as an invalid symbol, which keeps it. -/
theorem fault?_ofResult (e : LookupEntry) :
    (ImportedSymbol.ofResult (e.decodeFrom b image base)).fault? =
      Fault.ofResult? (e.decodeFrom b image base) := by
  cases h : e.decodeFrom b image base with
  | error fault => rfl
  | ok symbol => exact fault?_of_decodeFrom h

/-- The faults of a lookup table that can be scanned are those that its symbols keep. -/
theorem exists_readSymbols_eq (b : Bytes) (image : Image) (base : UInt64)
    (entries : List LookupEntry) :
    ∃ symbols, List.Forall₂ (ListedAs b image base) entries symbols ∧
      readSymbols b image base (.ok entries) =
        ⟨symbols, symbols.filterMap ImportedSymbol.fault?⟩ := by
  refine ⟨(entries.map (·.decodeFrom b image base)).map ImportedSymbol.ofResult, ?_, ?_⟩
  · rw [List.map_map, List.forall₂_map_right_iff, List.forall₂_same]
    exact fun e _ => listedAs_ofResult e
  · rw [readSymbols, List.filterMap_map, List.filterMap_map, List.filterMap_map]
    congr 1
    exact List.filterMap_congr fun e _ => (fault?_ofResult e).symm

end LookupEntry

/-! ### Records -/

/-- The index of the section that the directory table in some slot lies in. -/
def Image.tableIndex (image : Image) (slot : Nat) : Nat :=
  ((image.directory? slot).bind fun d => (image.locate d.address d.size).toOption).elim 0 (·.index)

/-- A record of either import directory. -/
inductive DllRecord where
  | direct (r : ImportRecord)
  | delayed (r : DelayRecord)

namespace DllRecord

/-- Whether the DLL of a record is loaded at the first use of a symbol. -/
def delayLoad : DllRecord → Bool
  | direct _ => false
  | delayed _ => true

/-- What the addresses in the lookup table of a record are relative to. -/
def base (image : Image) : DllRecord → UInt64
  | direct _ => 0
  | delayed r => r.base image

/-- The name of the DLL of a record. -/
def dllName (b : Bytes) (image : Image) : DllRecord → Except Fault String
  | direct r => r.dllName b image
  | delayed r => r.dllName b image

/-- The lookup table of a record. -/
def entries (b : Bytes) (image : Image) : DllRecord → Except Fault (List LookupEntry)
  | direct r => r.entries b image (image.tableIndex 1)
  | delayed r => r.entries b image (image.tableIndex 13)

/-- A record is listed as a DLL if its name can be read. The DLL has a symbol for each entry of the
lookup table, or none at all if there is something wrong with the table. -/
inductive ListedAs (b : Bytes) (image : Image) (r : DllRecord) : ImportedDll → Prop
  | scanned {name : String} {entries : List LookupEntry} {symbols : List ImportedSymbol} :
      r.dllName b image = .ok name → r.entries b image = .ok entries →
      List.Forall₂ (LookupEntry.ListedAs b image (r.base image)) entries symbols →
      ListedAs b image r ⟨name, r.delayLoad, symbols⟩
  | unscanned {name : String} {fault : Fault} :
      r.dllName b image = .ok name → r.entries b image = .error fault →
      ListedAs b image r ⟨name, r.delayLoad, []⟩

/-- What is read of a record. -/
def read (b : Bytes) (image : Image) (r : DllRecord) : Salvaged (Option ImportedDll) :=
  readDll b image r.delayLoad (r.base image) (r.dllName b image) (r.entries b image)

end DllRecord

/-- A record is listed in one way only. -/
theorem DllRecord.ListedAs.unique {r : DllRecord} {dll dll' : ImportedDll}
    (h : r.ListedAs b image dll) (h' : r.ListedAs b image dll') : dll = dll' := by
  cases h with
  | scanned hname hentries hsymbols =>
    cases h' with
    | scanned hname' hentries' hsymbols' =>
      obtain rfl := Except.ok.inj (hname.symm.trans hname')
      obtain rfl := Except.ok.inj (hentries.symm.trans hentries')
      obtain rfl := List.right_unique_forall₂' (fun _ _ _ h h' => h.unique h') hsymbols hsymbols'
      rfl
    | unscanned _ hentries' =>
      rw [hentries] at hentries'
      cases hentries'
  | unscanned hname hentries =>
    cases h' with
    | scanned _ hentries' =>
      rw [hentries] at hentries'
      cases hentries'
    | unscanned hname' =>
      obtain rfl := Except.ok.inj (hname.symm.trans hname')
      rfl

/-- Some DLLs and some faults account for some records, and for the failure of some directories. -/
structure ImportsAccountFor (b : Bytes) (image : Image) (failed : Nat) (records : List DllRecord)
    (dlls : List ImportedDll) (faults : List Fault) : Prop where
  /-- The DLLs are those of the records whose name can be read, in order. -/
  listed : List.Forall₂ (DllRecord.ListedAs b image)
    (records.filter fun r => (r.dllName b image).isOk) dlls
  /-- There is one fault for each directory, name, lookup table and symbol that is missing. -/
  length_faults : faults.length = failed +
    records.countP (fun r => !(r.dllName b image).isOk) +
    records.countP (fun r => (r.dllName b image).isOk && !(r.entries b image).isOk) +
    (invalidFaults dlls).length
  /-- The faults that the invalid symbols keep are among them, in the same order. -/
  invalid : (invalidFaults dlls).Sublist faults

namespace ImportsAccountFor

/-- Without a directory there is nothing to account for. -/
theorem nil : ImportsAccountFor b image 0 [] [] [] where
  listed := .nil
  length_faults := rfl
  invalid := .slnil

/-- What accounts for two lists of records accounts for both of them together. -/
theorem append {failed failed' : Nat} {records records' : List DllRecord}
    {dlls dlls' : List ImportedDll} {faults faults' : List Fault}
    (h : ImportsAccountFor b image failed records dlls faults)
    (h' : ImportsAccountFor b image failed' records' dlls' faults') :
    ImportsAccountFor b image (failed + failed') (records ++ records') (dlls ++ dlls')
      (faults ++ faults') where
  listed := by
    rw [List.filter_append]
    exact List.rel_append h.listed h'.listed
  length_faults := by
    simp only [invalidFaults_append, List.length_append, List.countP_append, h.length_faults,
      h'.length_faults]
    omega
  invalid := by
    rw [invalidFaults_append]
    exact h.invalid.append h'.invalid

/-- What is read of a record accounts for it. -/
theorem of_read (r : DllRecord) :
    ImportsAccountFor b image 0 [r] (r.read b image).value.toList (r.read b image).faults := by
  cases hname : r.dllName b image with
  | error fault =>
    have hread : r.read b image = ⟨none, [fault]⟩ := by rw [DllRecord.read, hname]; rfl
    have hbad : (r.dllName b image).isOk = false := by rw [hname]; rfl
    rw [hread]
    exact ⟨by simp [hbad], by simp [hbad, invalidFaults], List.nil_sublist _⟩
  | ok name =>
    have hok : (r.dllName b image).isOk = true := by rw [hname]; rfl
    cases hentries : r.entries b image with
    | error fault =>
      have hread : r.read b image = ⟨some ⟨name, r.delayLoad, []⟩, [fault]⟩ := by
        rw [DllRecord.read, hname, hentries]
        rfl
      have hbad : (r.entries b image).isOk = false := by rw [hentries]; rfl
      rw [hread]
      refine ⟨?_, by simp [hok, hbad, invalidFaults], List.nil_sublist _⟩
      simpa [hok] using DllRecord.ListedAs.unscanned hname hentries
    | ok entries =>
      obtain ⟨symbols, hsymbols, hread⟩ :=
        LookupEntry.exists_readSymbols_eq b image (r.base image) entries
      have hread : r.read b image = ⟨some ⟨name, r.delayLoad, symbols⟩,
          symbols.filterMap ImportedSymbol.fault?⟩ := by
        rw [DllRecord.read, hname, hentries, readDll, hread]
      have hgood : (r.entries b image).isOk = true := by rw [hentries]; rfl
      rw [hread]
      refine ⟨?_, by simp [hok, hgood, invalidFaults], by simp [invalidFaults]⟩
      simpa [hok] using DllRecord.ListedAs.scanned hname hentries hsymbols

/-- What is read of some records accounts for them. -/
theorem of_reads (b : Bytes) (image : Image) (records : List DllRecord) :
    ImportsAccountFor b image 0 records (records.filterMap fun r => (r.read b image).value)
      (records.flatMap fun r => (r.read b image).faults) := by
  induction records with
  | nil => exact nil
  | cons r records ih =>
    have hdlls : (r :: records).filterMap (fun r => (r.read b image).value) =
        (r.read b image).value.toList ++ records.filterMap fun r => (r.read b image).value := by
      rw [List.filterMap_cons]
      cases (r.read b image).value <;> rfl
    rw [hdlls, List.flatMap_cons]
    exact (of_read r).append ih

/-- A directory that cannot be read is accounted for by its fault. -/
theorem of_failed (fault : Fault) : ImportsAccountFor b image 1 [] [] [fault] where
  listed := .nil
  length_faults := rfl
  invalid := List.nil_sublist _

end ImportsAccountFor

/-! ### Directories -/

/-- The records of a directory table, if it can be read. -/
def DirectoryTable.recordsOf {α : Type} (record : α → DllRecord) :
    Except Fault (Option (DirectoryTable α)) → List DllRecord
  | .ok (some table) => table.entries.map record
  | _ => []

/-- The records of both import directories. -/
def dllRecords (b : Bytes) (image : Image) : List DllRecord :=
  DirectoryTable.recordsOf .direct (importDirectory b image) ++
    DirectoryTable.recordsOf .delayed (delayDirectory b image)

/-- The number of import directories that cannot be read. -/
def failedDirectories (b : Bytes) (image : Image) : Nat :=
  [(importDirectory b image).isOk, (delayDirectory b image).isOk].count false

/-- A directory table is in the section that its data directory lies in. -/
theorem index_of_directoryTable {α : Type} {slot width : Nat} {kind : TableKind}
    {read? : Nat → Option α} {isNull : α → Bool} {table : DirectoryTable α}
    (h : directoryTable image slot kind read? isNull width = .ok (some table)) :
    table.index = image.tableIndex slot := by
  rw [directoryTable] at h
  split at h
  · cases h
  · next d hd =>
    split at h
    · cases h
    · next place hplace =>
      split at h
      · cases h
      · cases h
        rw [Image.tableIndex, hd, Option.bind_some, hplace]
        rfl

/-- What is read of a directory accounts for its records, or for its failure. -/
theorem importsAccountFor_readDlls {α : Type} (record : α → DllRecord)
    (read : α → Nat → Salvaged (Option ImportedDll))
    (directory : Except Fault (Option (DirectoryTable α)))
    (hread : ∀ table, directory = .ok (some table) →
      ∀ r, read r table.index = (record r).read b image) :
    ImportsAccountFor b image ([directory.isOk].count false)
      (DirectoryTable.recordsOf record directory) (readDlls read directory).value
      (readDlls read directory).faults := by
  cases directory with
  | error fault => exact .of_failed fault
  | ok table =>
    cases table with
    | none => exact .nil
    | some table =>
      have hreads := ImportsAccountFor.of_reads b image (table.entries.map record)
      simp only [List.filterMap_map, List.flatMap_map, Function.comp_def, ← hread table rfl]
        at hreads
      simp only [readDlls, List.filterMap_map, List.flatMap_map, Function.comp_def]
      exact hreads

/-- The import table of an image accounts for the records of both directories. -/
theorem importsAccountFor_readImports (b : Bytes) (image : Image) :
    ImportsAccountFor b image (failedDirectories b image) (dllRecords b image)
      (readImports b image).value.dlls (readImports b image).faults := by
  have hdirect := importsAccountFor_readDlls .direct (ImportRecord.readDll · b image)
    (importDirectory b image) fun table htable r => by
      rw [index_of_directoryTable htable]
      rfl
  have hdelayed := importsAccountFor_readDlls .delayed (DelayRecord.readDll · b image)
    (delayDirectory b image) fun table htable r => by
      rw [index_of_directoryTable htable]
      rfl
  have hfailed : failedDirectories b image = [(importDirectory b image).isOk].count false +
      [(delayDirectory b image).isOk].count false := by
    rw [failedDirectories, ← List.count_append]
    rfl
  rw [hfailed]
  exact hdirect.append hdelayed

/-! ### Slots -/

/-- A slot of the address table is listed by the address in it. An address in the directory is that
of the text of a forwarder, which is empty if it cannot be read. -/
inductive ExportTarget.ListedAs (b : Bytes) (image : Image) (d : DataDirectory) (rva : UInt32) :
    ExportTarget → Prop
  | empty : rva = 0 → ListedAs b image d rva .empty
  | code : rva ≠ 0 → d.contains rva = false → ListedAs b image d rva (.code rva)
  | forwarder {symbol : String} : rva ≠ 0 → d.contains rva = true →
      readAscii b image rva maxSymbolName = .ok symbol → ListedAs b image d rva (.forwarder symbol)
  | unreadable {fault : Fault} : rva ≠ 0 → d.contains rva = true →
      readAscii b image rva maxSymbolName = .error fault → ListedAs b image d rva (.forwarder "")

/-- No text that is read is empty. -/
theorem ne_empty_of_readAscii {rva : UInt32} {maxLength : Nat} {text : String}
    (h : readAscii b image rva maxLength = .ok text) : text ≠ "" := by
  obtain ⟨-, place, -, htext⟩ := readAscii_eq_ok_iff.1 h
  exact (readAsciiAt_eq_ok_iff.1 htext).2.1

/-- A slot has a fault if and only if it is listed as a forwarder without a text. -/
theorem exists_readTarget_eq (b : Bytes) (image : Image) (d : DataDirectory) (rva : UInt32) :
    ∃ target faults, readTarget b image d rva = ⟨target, faults⟩ ∧
      ExportTarget.ListedAs b image d rva target ∧
      faults.length = [target].count (.forwarder "") := by
  rw [readTarget]
  split
  · next hzero => exact ⟨_, _, rfl, .empty hzero, rfl⟩
  · next hrva =>
    split
    · next hinside =>
      cases hread : readAscii b image rva maxSymbolName with
      | error fault => exact ⟨_, _, rfl, .unreadable hrva hinside hread, rfl⟩
      | ok symbol =>
        have hne : ExportTarget.forwarder symbol ≠ .forwarder "" := by
          simpa using ne_empty_of_readAscii hread
        exact ⟨_, _, rfl, .forwarder hrva hinside hread,
          (List.count_eq_zero.2 (by simpa using hne.symm)).symm⟩
    · next houtside =>
      exact ⟨_, _, rfl, .code hrva (Bool.eq_false_iff.2 houtside), rfl⟩

/-- Every slot is listed, and there is one fault for each forwarder without a text. -/
theorem map_readTarget_listedAs (b : Bytes) (image : Image) (d : DataDirectory)
    (words : List UInt32) :
    List.Forall₂ (ExportTarget.ListedAs b image d) words
        ((words.map (readTarget b image d)).map (·.value)) ∧
      ((words.map (readTarget b image d)).flatMap (·.faults)).length =
        ((words.map (readTarget b image d)).map (·.value)).count (.forwarder "") := by
  induction words with
  | nil => exact ⟨.nil, rfl⟩
  | cons rva words ih =>
    obtain ⟨target, faults, hread, hlisted, hfaults⟩ := exists_readTarget_eq b image d rva
    obtain ⟨ihlisted, ihfaults⟩ := ih
    simp only [List.map_cons, hread, List.flatMap_cons, List.length_append, hfaults, ihfaults]
    refine ⟨.cons hlisted ihlisted, ?_⟩
    rw [← List.count_append, List.singleton_append]

/-! ### Names -/

/-- The names that an export directory declares, each as its address and the slot that it is for. -/
def ExportRecord.nameEntries (r : ExportRecord) (b : Bytes) (image : Image) :
    Except Fault (List (UInt32 × UInt16)) := do
  let pointers ← readWords b image r.nameTable r.nameCount
  let ordinals ← readHalfWords b image r.ordinalTable r.nameCount
  return pointers.zip ordinals

/-- Whether a name is listed, in a table with so many slots. -/
def ExportName.isListed (b : Bytes) (image : Image) (slots : Nat) (e : UInt32 × UInt16) : Bool :=
  decide (e.2.toNat < slots) && (readAscii b image e.1 maxSymbolName).isOk

/-- A name is listed with its text and its slot. -/
structure ExportName.ListedAs (b : Bytes) (image : Image) (e : UInt32 × UInt16)
    (name : ExportName) : Prop where
  text : readAscii b image e.1 maxSymbolName = .ok name.name
  slot : name.slot = e.2

/-- A name has a fault if and only if it is not listed. -/
theorem readName_eq (b : Bytes) (image : Image) (slots : Nat) (e : UInt32 × UInt16) :
    (ExportName.isListed b image slots e = true ∧ ∃ name, ExportName.ListedAs b image e name ∧
      readName b image slots e.1 e.2 = ⟨some name, []⟩) ∨
    (ExportName.isListed b image slots e = false ∧ ∃ fault,
      readName b image slots e.1 e.2 = ⟨none, [fault]⟩) := by
  rw [readName, ExportName.isListed]
  split
  · next hslot => exact .inr ⟨by simp [Nat.not_lt_of_le hslot], _, rfl⟩
  · next hslot =>
    cases hread : readAscii b image e.1 maxSymbolName with
    | error fault => exact .inr ⟨Bool.and_false _, fault, rfl⟩
    | ok text =>
      have hlt : e.2.toNat < slots := Nat.lt_of_not_le hslot
      exact .inl ⟨by simp [hlt, Except.isOk, Except.toBool], ⟨text, e.2⟩, ⟨hread, rfl⟩, rfl⟩

/-- Each name is either listed or has a fault. -/
theorem filterMap_readName (b : Bytes) (image : Image) (slots : Nat)
    (entries : List (UInt32 × UInt16)) :
    List.Forall₂ (ExportName.ListedAs b image) (entries.filter (ExportName.isListed b image slots))
        ((entries.map fun e => readName b image slots e.1 e.2).filterMap (·.value)) ∧
      ((entries.map fun e => readName b image slots e.1 e.2).filterMap (·.value)).length +
        ((entries.map fun e => readName b image slots e.1 e.2).flatMap (·.faults)).length =
          entries.length := by
  induction entries with
  | nil => exact ⟨.nil, rfl⟩
  | cons e entries ih =>
    obtain ⟨ihlisted, ihlength⟩ := ih
    rcases readName_eq b image slots e with
      ⟨hlisted, name, hname, hread⟩ | ⟨hlisted, fault, hread⟩
    · rw [List.filter_cons_of_pos hlisted, List.map_cons, hread]
      refine ⟨.cons hname ihlisted, ?_⟩
      simp only [List.filterMap_cons, List.flatMap_cons, List.nil_append, List.length_cons,
        ← ihlength]
      omega
    · rw [List.filter_cons_of_neg (by simp [hlisted]), List.map_cons, hread]
      refine ⟨ihlisted, ?_⟩
      simp only [List.filterMap_cons, List.flatMap_cons, List.length_append, List.length_cons,
        List.length_nil, ← ihlength]
      omega

/-- A row that is read has as many records as asked for. -/
theorem length_of_row {α : Type} {read? : Nat → Option α} {rva size count : UInt32} {width : Nat}
    {short : Fault} {row : List α}
    (h : (if count = 0 then .ok []
      else
        match image.locate rva size with
        | .error fault => .error fault
        | .ok place => Fault.expect short (Bytes.records? read? width place.offset count.toNat) :
        Except Fault (List α)) = .ok row) :
    row.length = count.toNat := by
  split at h
  · next hzero =>
    cases h
    rw [hzero]
    rfl
  · split at h
    · cases h
    · exact Bytes.length_of_records? (Fault.expect_eq_ok_iff.1 h)

/-- As many words are read as were asked for. -/
theorem length_of_readWords {rva count : UInt32} {words : List UInt32}
    (h : readWords b image rva count = .ok words) : words.length = count.toNat :=
  length_of_row h

/-- As many half words are read as were asked for. -/
theorem length_of_readHalfWords {rva count : UInt32} {words : List UInt16}
    (h : readHalfWords b image rva count = .ok words) : words.length = count.toNat :=
  length_of_row h

/-- Some names and some faults account for the names that an export directory declares. -/
inductive NamesAccountFor (b : Bytes) (image : Image) (slots : Nat) (r : ExportRecord) :
    List ExportName → List Fault → Prop
  /-- There are no names without their tables. -/
  | missing {fault : Fault} : r.nameEntries b image = .error fault →
      NamesAccountFor b image slots r [] [fault]
  /-- There is one fault for each name that is left out. -/
  | listed {entries : List (UInt32 × UInt16)} {names : List ExportName} {faults : List Fault} :
      r.nameEntries b image = .ok entries → entries.length = r.nameCount.toNat →
      List.Forall₂ (ExportName.ListedAs b image)
        (entries.filter (ExportName.isListed b image slots)) names →
      names.length + faults.length = r.nameCount.toNat →
      NamesAccountFor b image slots r names faults

/-- The names that are read, and the faults met on the way, account for every entry of the name
table. -/
theorem namesAccountFor_readNames (b : Bytes) (image : Image) (slots : Nat) (r : ExportRecord) :
    NamesAccountFor b image slots r (r.readNames b image slots).value
      (r.readNames b image slots).faults := by
  rw [ExportRecord.readNames]
  cases hpointers : readWords b image r.nameTable r.nameCount with
  | error fault => exact .missing (by rw [ExportRecord.nameEntries, hpointers]; rfl)
  | ok pointers =>
    cases hordinals : readHalfWords b image r.ordinalTable r.nameCount with
    | error fault => exact .missing (by rw [ExportRecord.nameEntries, hpointers, hordinals]; rfl)
    | ok ordinals =>
      have hentries : r.nameEntries b image = .ok (pointers.zip ordinals) := by
        rw [ExportRecord.nameEntries, hpointers, hordinals]
        rfl
      have hlength : (pointers.zip ordinals).length = r.nameCount.toNat := by
        rw [List.length_zip, length_of_readWords hpointers, length_of_readHalfWords hordinals,
          Nat.min_self]
      obtain ⟨hlisted, hfaults⟩ := filterMap_readName b image slots (pointers.zip ordinals)
      exact .listed hentries hlength hlisted (hfaults.trans hlength)

/-! ### The export table -/

/-- A table and some faults account for an export directory. -/
structure ExportsAccountFor (b : Bytes) (image : Image) (d : DataDirectory) (r : ExportRecord)
    (table : ExportTable) (faults : List Fault) : Prop where
  /-- There are as many slots as the directory declares. -/
  size_addresses : table.addresses.size = r.addressCount.toNat
  /-- Each of them is listed by its address. -/
  slots : ∃ words, readWords b image r.addressTable r.addressCount = .ok words ∧
    List.Forall₂ (ExportTarget.ListedAs b image d) words table.addresses.toList
  /-- There is one fault if the DLL has a name that cannot be read, one for each forwarder that
  cannot be read, and those of the names. -/
  length_faults : ∃ nameFaults, NamesAccountFor b image table.addresses.size r table.names.toList
    nameFaults ∧ faults.length =
      (if r.name ≠ 0 ∧ (readAscii b image r.name maxDllName).isOk = false then 1 else 0) +
      table.addresses.toList.count (.forwarder "") + nameFaults.length

/-- There is a fault for the name of the DLL if it is declared and cannot be read. -/
theorem length_faults_dllName (r : ExportRecord) : (r.dllName b image).faults.length =
    if r.name ≠ 0 ∧ (readAscii b image r.name maxDllName).isOk = false then 1 else 0 := by
  rw [ExportRecord.dllName]
  split
  · next hzero => rw [if_neg fun h => h.1 hzero, List.length_nil]
  · next hname =>
    cases hread : readAscii b image r.name maxDllName with
    | error fault => exact (if_pos ⟨hname, rfl⟩).symm
    | ok name => exact (if_neg fun h => Bool.noConfusion h.2).symm

/-- An export table accounts for the directory that it has been read from. -/
theorem exportsAccountFor_readExports {table : ExportTable}
    (h : (readExports b image).value = some table) :
    ∃ d place r, image.directory? 0 = some d ∧
      image.locate d.address (UInt32.ofNat ExportRecord.size) = .ok place ∧
      ExportRecord.read? b place.offset = some r ∧
      ExportsAccountFor b image d r table (readExports b image).faults := by
  obtain ⟨d, r, words, hd, hr, hwords⟩ := exists_of_readExports h
  obtain ⟨place, hplace, hread, -⟩ := Image.readExportRecord_eq_ok_iff.1 hr
  obtain ⟨hslots, hfaults⟩ := map_readTarget_listedAs b image d words
  have hnames := namesAccountFor_readNames b image words.length r
  have hlength := length_of_readWords hwords
  rw [readExports_eq hd hr hwords] at h ⊢
  obtain rfl := Option.some.inj h
  refine ⟨d, place, r, hd, hplace, hread, by simpa using hlength, ⟨words, hwords, hslots⟩,
    (r.readNames b image words.length).faults, by simpa using hnames, ?_⟩
  simp only [List.length_append, length_faults_dllName, hfaults]

/-- There is no export table, and nothing is wrong, if and only if the image has no export
directory or an empty one. -/
theorem readExports_eq_none_iff :
    (readExports b image).value = none ∧ (readExports b image).faults = [] ↔
      ∀ d, image.directories[0]? = some d → d.isEmpty = true := by
  have hdirectory : image.directory? 0 = none ↔
      ∀ d, image.directories[0]? = some d → d.isEmpty = true := by
    simp [Image.directory?, Option.filter_eq_none_iff]
  rw [← hdirectory, readExports]
  constructor
  · intro h
    split at h
    · next hnone => exact hnone
    · split at h
      · cases h.2
      · dsimp only at h
        split at h
        · exact absurd h.2 (by simp)
        · cases h.1
  · intro hnone
    rw [hnone]
    exact ⟨rfl, rfl⟩

/-- Nothing is dropped silently. The DLLs that an image imports from are those of its records, each
listed by its own record alone, and there is one fault for everything that is missing. An image
without an export table has no export directory or a fault, and a table that is there accounts for
its directory. -/
theorem accountFor_readImports_and_readExports (b : Bytes) (image : Image) :
    ImportsAccountFor b image (failedDirectories b image) (dllRecords b image)
      (readImports b image).value.dlls (readImports b image).faults ∧
    (∀ (r : DllRecord) dll dll', r.ListedAs b image dll → r.ListedAs b image dll' → dll = dll') ∧
    ((readExports b image).value = none ∧ (readExports b image).faults = [] ↔
      ∀ d, image.directories[0]? = some d → d.isEmpty = true) ∧
    ∀ table, (readExports b image).value = some table →
      ∃ d place r, image.directory? 0 = some d ∧
        image.locate d.address (UInt32.ofNat ExportRecord.size) = .ok place ∧
        ExportRecord.read? b place.offset = some r ∧
        ExportsAccountFor b image d r table (readExports b image).faults :=
  ⟨importsAccountFor_readImports b image, fun _ _ _ => DllRecord.ListedAs.unique,
    readExports_eq_none_iff, fun _ => exportsAccountFor_readExports⟩

end DllGraph
