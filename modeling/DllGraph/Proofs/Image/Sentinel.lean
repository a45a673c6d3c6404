import DllGraph.Proofs.Image.StoredImports

/-!
# Tables End at Their First All-Zero Record

No table of imports says how long it is: it ends at its first all-zero record, which must come among
the records that there is room for. The import directory, the delay-load directory and the lookup
tables of either width are scanned in the same way. This module says of the bytes of the file what
such a scan answers (`ScansTable`), and proves it for all of them.

The room of a directory table is the size that the image declares for it, and that of a lookup table
is what is left of the raw data of its section, up to a limit. A record that does not fit in the
room as a whole is not looked at.

## Main definitions

* `RecordFormat`, the records that are read where their bytes are stored;
* `ScansTable`, what a scan answers;
* `Image.ScansLookup`, what the scan of a lookup table answers, by the width of the image.

## Main results

* `RecordFormat.sentinelTable?_eq_some_iff` — the records that a scan collects;
* `RecordFormat.scansTable` — a reader that scans a table;
* `scansTables_of_parse` — all tables of imports.
-/

namespace DllGraph

open Bytes

variable {b : Bytes} {image : Image}

/-! ### Records and their bytes -/

/-- A 32-bit word is read if and only if its four bytes are there. -/
theorem u32?_eq_some_iff {offset : Nat} {w : UInt32} :
    b.u32? offset = some w ↔ b.Stores offset (ofWord 4 w.toNat) := by
  refine ⟨fun h => ?_, u32?_of_stores⟩
  obtain ⟨n, hn, rfl⟩ := Option.map_eq_some_iff.1 h
  rw [UInt32.toNat_ofNat_of_lt' (word?_lt hn)]
  exact stores_of_word? hn

/-- A 64-bit word is read if and only if its eight bytes are there. -/
theorem u64?_eq_some_iff {offset : Nat} {w : UInt64} :
    b.u64? offset = some w ↔ b.Stores offset (ofWord 8 w.toNat) := by
  refine ⟨fun h => ?_, u64?_of_stores⟩
  obtain ⟨n, hn, rfl⟩ := Option.map_eq_some_iff.1 h
  rw [UInt64.toNat_ofNat_of_lt' (word?_lt hn)]
  exact stores_of_word? hn

/-- Words are stored one after the other. -/
theorem stores_wordBytes_cons_iff {offset : Nat} {w : UInt32} {words : List UInt32} :
    b.Stores offset (wordBytes (w :: words)) ↔
      b.u32? offset = some w ∧ b.Stores (offset + 4) (wordBytes words) := by
  rw [wordBytes, List.flatMap_cons, stores_append, length_ofWord, u32?_eq_some_iff, wordBytes]

/-- Where an import record is read, its bytes are. -/
theorem ImportRecord.stores_of_read? {offset : Nat} {r : ImportRecord}
    (h : read? b offset = some r) : b.Stores offset r.bytes := by
  simp only [read?, Option.bind_eq_bind, Option.bind_eq_some_iff, Option.some.injEq] at h
  obtain ⟨lookup, hlookup, timestamp, htimestamp, chain, hchain, name, hname, address, haddress,
    rfl⟩ := h
  simp only [bytes, stores_wordBytes_cons_iff, Nat.add_assoc, Nat.reduceAdd]
  exact ⟨hlookup, htimestamp, hchain, hname, haddress, stores_nil⟩

/-- Where a delay-load record is read, its bytes are. -/
theorem DelayRecord.stores_of_read? {offset : Nat} {r : DelayRecord}
    (h : read? b offset = some r) : b.Stores offset r.bytes := by
  simp only [read?, Option.bind_eq_bind, Option.bind_eq_some_iff, Option.some.injEq] at h
  obtain ⟨attributes, hattributes, name, hname, handle, hhandle, addresses, haddresses, names,
    hnames, bound, hbound, unload, hunload, timestamp, htimestamp, rfl⟩ := h
  simp only [bytes, stores_wordBytes_cons_iff, Nat.add_assoc, Nat.reduceAdd]
  exact ⟨hattributes, hname, hhandle, haddresses, hnames, hbound, hunload, htimestamp, stores_nil⟩

/-! ### Formats -/

/-- A format of records: a record is read exactly where its bytes are stored, and the record that
ends a table is the one whose bytes are all zero. -/
structure RecordFormat {α : Type} (read : Bytes → Nat → Option α) (isNull : α → Bool)
    (bytes : α → List UInt8) (zero : α) (width : Nat) : Prop where
  pos : 0 < width
  fixedWidth : FixedWidth read width
  length_bytes : ∀ a, (bytes a).length = width
  read_iff : ∀ {b offset a}, read b offset = some a ↔ b.Stores offset (bytes a)
  isNull_iff : ∀ {a}, isNull a = true ↔ a = zero
  bytes_zero : bytes zero = List.replicate width 0

/-- Import records are stored as their fields, and one of zeros ends a table of them. -/
theorem ImportRecord.format :
    RecordFormat read? isNull bytes zero size where
  pos := by decide
  fixedWidth := fixedWidth_read?
  length_bytes := length_bytes
  read_iff := ⟨stores_of_read?, read?_of_stores⟩
  isNull_iff := beq_iff_eq
  bytes_zero := by decide

/-- Delay-load records are stored as their fields, and one of zeros ends a table of them. -/
theorem DelayRecord.format :
    RecordFormat read? isNull bytes zero size where
  pos := by decide
  fixedWidth := fixedWidth_read?
  length_bytes := length_bytes
  read_iff := ⟨stores_of_read?, read?_of_stores⟩
  isNull_iff := beq_iff_eq
  bytes_zero := by decide

/-- The entries of a narrow lookup table. -/
theorem format_u32 : RecordFormat u32? (· == 0) (fun w => ofWord 4 w.toNat) 0 4 where
  pos := by decide
  fixedWidth := fixedWidth_u32?
  length_bytes _ := length_ofWord 4 _
  read_iff := u32?_eq_some_iff
  isNull_iff := beq_iff_eq
  bytes_zero := by decide

/-- The entries of a wide lookup table. -/
theorem format_u64 : RecordFormat u64? (· == 0) (fun w => ofWord 8 w.toNat) 0 8 where
  pos := by decide
  fixedWidth := fixedWidth_u64?
  length_bytes _ := length_ofWord 8 _
  read_iff := u64?_eq_some_iff
  isNull_iff := beq_iff_eq
  bytes_zero := by decide

/-! ### Scans -/

/-- What a scan of the table at an offset answers. `result` is what it makes of the records. -/
structure ScansTable {α β : Type} (scan : Bytes → Except Fault β) (result : List α → β) (b : Bytes)
    (bytes : α → List UInt8) (width offset cap : Nat) (kind : TableKind) : Prop where
  /-- It succeeds if and only if one of the first `cap` records is all zero. -/
  succeeds_iff : (∃ found, scan b = .ok found) ↔
    ∃ i < cap, b.Stores (offset + width * i) (List.replicate width 0)
  /-- What it answers are the records before the first one that is all zero. -/
  of_ok : ∀ found, scan b = .ok found → ∃ entries, found = result entries ∧
    entries.length < cap ∧ (∀ e ∈ entries, bytes e ≠ List.replicate width 0) ∧
    b.Stores offset (entries.flatMap bytes ++ List.replicate width 0) ∧
    -- It depends on nothing that follows.
    ∀ b' : Bytes, (∀ i < width * (entries.length + 1), b'[offset + i]? = b[offset + i]?) →
      scan b' = scan b
  /-- If it fails, it says which table has no end. -/
  of_error : ∀ fault, scan b = .error fault → fault = .endless kind

namespace RecordFormat

variable {α : Type} {read : Bytes → Nat → Option α} {isNull : α → Bool} {bytes : α → List UInt8}
  {zero : α} {width offset cap : Nat} {entries : List α}

/-- A record does not end a table if and only if one of its bytes is not zero. -/
theorem isNull_eq_false_iff (hf : RecordFormat read isNull bytes zero width) {a : α} :
    isNull a = false ↔ bytes a ≠ List.replicate width 0 := by
  rw [Bool.eq_false_iff, not_iff_not, hf.isNull_iff, ← hf.bytes_zero]
  refine ⟨congrArg bytes, fun hsame => ?_⟩
  -- The file of the bytes of both is read as either of them.
  have hstores : Stores ⟨(bytes a).toArray⟩ 0 (bytes a) := by
    simp [stores_iff_take_drop]
  exact Option.some.inj ((hf.read_iff.2 hstores).symm.trans (hf.read_iff.2 (hsame ▸ hstores)))

/-- A scan collects records that are stored, together with their end, within the cap. -/
theorem stores_of_sentinelTable? (hf : RecordFormat read isNull bytes zero width)
    (h : sentinelTable? (read b) isNull width offset cap = some entries) :
    entries.length < cap ∧ (∀ e ∈ entries, isNull e = false) ∧
      b.Stores offset (tableBytes bytes zero entries) := by
  induction cap generalizing offset entries with
  | zero => cases h
  | succ cap ih =>
    simp only [sentinelTable?] at h
    split at h
    · cases h
    · next first hfirst =>
      split at h
      · next hnull =>
        cases h
        refine ⟨Nat.succ_pos cap, by simp, ?_⟩
        rw [hf.isNull_iff] at hnull
        simpa [tableBytes, hnull] using hf.read_iff.1 hfirst
      · next hnull =>
        obtain ⟨rest, hrest, rfl⟩ := Option.map_eq_some_iff.1 h
        obtain ⟨hlt, hall, hstores⟩ := ih hrest
        refine ⟨Nat.succ_lt_succ hlt, ?_, ?_⟩
        · exact List.forall_mem_cons.2 ⟨Bool.eq_false_iff.2 hnull, hall⟩
        · rw [tableBytes, List.cons_append, List.flatMap_cons, stores_append, hf.length_bytes]
          exact ⟨hf.read_iff.1 hfirst, hstores⟩

/-- A table is read if and only if its records, of which none is null, are stored one after the
other with a null one behind them, all within the limit. -/
theorem sentinelTable?_eq_some_iff (hf : RecordFormat read isNull bytes zero width) :
    sentinelTable? (read b) isNull width offset cap = some entries ↔
      entries.length < cap ∧ (∀ e ∈ entries, isNull e = false) ∧
        b.Stores offset (tableBytes bytes zero entries) :=
  ⟨hf.stores_of_sentinelTable?, fun ⟨hlt, hall, hstores⟩ =>
    sentinelTable?_of_stores (fun _ _ _ => hf.read_iff.2) (fun e _ => hf.length_bytes e) hall
      (hf.isNull_iff.2 rfl) hlt hstores⟩

/-- If its room is in the file, a table is found to end if and only if one of the records for which
there is room is all zero. -/
theorem exists_sentinelTable?_iff (hf : RecordFormat read isNull bytes zero width)
    (hroom : offset + width * cap ≤ b.size) :
    (∃ entries, sentinelTable? (read b) isNull width offset cap = some entries) ↔
      ∃ i < cap, b.Stores (offset + width * i) (List.replicate width 0) := by
  rw [← hf.bytes_zero]
  constructor
  · rintro ⟨entries, hentries⟩
    obtain ⟨hlt, -, hstores⟩ := hf.stores_of_sentinelTable? hentries
    rw [tableBytes, List.flatMap_append, stores_append,
      length_flatMap_bytes fun e _ => hf.length_bytes e] at hstores
    exact ⟨entries.length, hlt, by simpa using hstores.2⟩
  · rintro ⟨i, hi, hzero⟩
    by_contra hnone
    have hall := (hf.fixedWidth.records? hf.pos cap).isSome hroom
    obtain ⟨records, hrecords, hnot⟩ := unterminated_of_sentinelTable? hall
      (Option.eq_none_iff_forall_ne_some.2 fun entries hentries => hnone ⟨entries, hentries⟩)
    have hlt : i < records.length := by rwa [length_of_records? hrecords]
    have hread := getElem?_records? hrecords (List.getElem?_eq_getElem hlt)
    rw [hf.read_iff.2 hzero, Option.some.injEq] at hread
    have hnull := hnot _ (List.getElem_mem hlt)
    rw [← hread, hf.isNull_iff.2 rfl] at hnull
    cases hnull

/-- A table is stored as its records and then zeros. -/
theorem tableBytes_eq (hf : RecordFormat read isNull bytes zero width) :
    tableBytes bytes zero entries = entries.flatMap bytes ++ List.replicate width 0 := by
  rw [tableBytes, List.flatMap_append, List.flatMap_singleton, hf.bytes_zero]

/-- A reader that scans a table whose room is in the file. -/
theorem scansTable (hf : RecordFormat read isNull bytes zero width) {β : Type}
    {scan : Bytes → Except Fault β} {result : List α → β} {kind : TableKind}
    (hscan : ∀ b', scan b' = (Fault.expect (.endless kind)
      (sentinelTable? (read b') isNull width offset cap)).map result)
    (hroom : offset + width * cap ≤ b.size) :
    ScansTable scan result b bytes width offset cap kind where
  succeeds_iff := by
    rw [← hf.exists_sentinelTable?_iff hroom, hscan]
    cases sentinelTable? (read b) isNull width offset cap with
    | none => simp [Fault.expect, Except.map]
    | some entries => simp [Fault.expect, Except.map]
  of_ok found h := by
    rw [hscan] at h
    cases hentries : sentinelTable? (read b) isNull width offset cap with
    | none =>
      rw [hentries] at h
      cases h
    | some entries =>
      rw [hentries] at h
      cases h
      obtain ⟨hlt, hall, hstores⟩ := hf.stores_of_sentinelTable? hentries
      refine ⟨entries, rfl, hlt, fun e he => hf.isNull_eq_false_iff.1 (hall e he),
        hf.tableBytes_eq ▸ hstores, fun b' hb => ?_⟩
      have hstores' : b'.Stores offset (tableBytes bytes zero entries) := fun i hi => by
        rw [← hstores i hi]
        rw [length_tableBytes fun e _ => hf.length_bytes e] at hi
        exact hb i hi
      rw [hscan, hscan, hentries, hf.sentinelTable?_eq_some_iff.2 ⟨hlt, hall, hstores'⟩]
  of_error fault h := by
    rw [hscan] at h
    cases hentries : sentinelTable? (read b) isNull width offset cap with
    | none =>
      rw [hentries] at h
      cases h
      rfl
    | some entries =>
      rw [hentries] at h
      cases h

end RecordFormat

/-! ### The tables of imports -/

section Readers

variable {place : Location}

/-- A scan of records that are made of other ones is a scan of those. -/
theorem sentinelTable?_map {α β : Type} {read? : Nat → Option α} {isNull : β → Bool} {f : α → β}
    {width offset cap : Nat} :
    sentinelTable? (fun offset => (read? offset).map f) isNull width offset cap =
      (sentinelTable? read? (isNull ∘ f) width offset cap).map (List.map f) := by
  induction cap generalizing offset with
  | zero => rfl
  | succ cap ih =>
    simp only [sentinelTable?]
    cases read? offset with
    | none => rfl
    | some first =>
      simp only [Option.map_some, ih, Function.comp_apply]
      split
      · rfl
      · rw [Option.map_map, Option.map_map]
        rfl

/-- What is expected can be changed before or after it is found to be there. -/
theorem expect_map {α β : Type} (fault : Fault) (f : α → β) (x : Option α) :
    Fault.expect fault (x.map f) = (Fault.expect fault x).map f := by
  cases x <;> rfl

/-- What the scan of the lookup table at a place answers. The entries have the width that the image
has, and the room is what is left of the raw data of the section, up to the limit. -/
structure Image.ScansLookup (image : Image) (scan : Bytes → Except Fault (List LookupEntry))
    (b : Bytes) (place : Location) : Prop where
  wide : image.is64Bit = true →
    ScansTable scan (List.map LookupEntry.ofUInt64) b (fun w : UInt64 => ofWord 8 w.toNat) 8
      place.offset (min 65536 ((place.host.rawEnd - place.offset) / 8)) .importLookup
  narrow : image.is64Bit = false →
    ScansTable scan (List.map LookupEntry.ofUInt32) b (fun w : UInt32 => ofWord 4 w.toNat) 4
      place.offset (min 65536 ((place.host.rawEnd - place.offset) / 4)) .importLookup

/-- A lookup table is a table of words of its width. -/
theorem tableAt_of_wide {index : Nat} {rva : UInt32} (hwide : image.is64Bit = true)
    (hplace : image.locateIn index rva = .ok place) :
    LookupEntry.tableAt b image index rva = (Fault.expect (.endless .importLookup)
      (sentinelTable? b.u64? (· == 0) 8 place.offset
        (min 65536 ((place.host.rawEnd - place.offset) / 8)))).map
          (List.map LookupEntry.ofUInt64) := by
  have hread : LookupEntry.read? b image =
      fun offset => (b.u64? offset).map LookupEntry.ofUInt64 := by
    funext offset
    rw [LookupEntry.read?, if_pos hwide]
  have hwidth : image.lookupWidth = 8 := by
    rw [Image.lookupWidth, if_pos hwide]
  simp only [LookupEntry.tableAt, hplace]
  rw [hread, hwidth, sentinelTable?_map, expect_map]
  rfl

/-- In a 32-bit image, a lookup table is one of 32-bit words. -/
theorem tableAt_of_narrow {index : Nat} {rva : UInt32} (hnarrow : image.is64Bit = false)
    (hplace : image.locateIn index rva = .ok place) :
    LookupEntry.tableAt b image index rva = (Fault.expect (.endless .importLookup)
      (sentinelTable? b.u32? (· == 0) 4 place.offset
        (min 65536 ((place.host.rawEnd - place.offset) / 4)))).map
          (List.map LookupEntry.ofUInt32) := by
  have hread : LookupEntry.read? b image =
      fun offset => (b.u32? offset).map LookupEntry.ofUInt32 := by
    funext offset
    rw [LookupEntry.read?, if_neg (by simp [hnarrow])]
  have hwidth : image.lookupWidth = 4 := by
    rw [Image.lookupWidth, if_neg (by simp [hnarrow])]
  have hnull : LookupEntry.isNull ∘ LookupEntry.ofUInt32 = (· == 0) := by
    funext w
    simp [LookupEntry.isNull, LookupEntry.ofUInt32, ← UInt64.toNat_inj, ← UInt32.toNat_inj]
  simp only [LookupEntry.tableAt, hplace]
  rw [hread, hwidth, sentinelTable?_map, expect_map, hnull]
  rfl

/-- A lookup table is scanned from where it has been located to its null entry, the limit or the end
of its section. -/
theorem scansLookup_of_locateIn {scan : Bytes → Except Fault (List LookupEntry)} {index : Nat}
    {rva : UInt32} (hw : image.LiesWithin b) (hplace : image.locateIn index rva = .ok place)
    (hscan : ∀ b', scan b' = LookupEntry.tableAt b' image index rva) :
    image.ScansLookup scan b place := by
  have hfits := Image.fits_of_locateIn hplace
  have hend : place.host.rawEnd ≤ b.size := hw.rawEnd_le hfits
  have hstart : place.offset + 1 ≤ place.host.rawEnd := hfits.le_rawEnd
  have hroom : ∀ width, place.offset +
      width * min 65536 ((place.host.rawEnd - place.offset) / width) ≤ b.size := by
    intro width
    have hcap : width * min 65536 ((place.host.rawEnd - place.offset) / width) ≤
        place.host.rawEnd - place.offset :=
      Nat.le_trans (Nat.mul_le_mul_left width (Nat.min_le_right ..)) (Nat.mul_div_le ..)
    omega
  constructor
  · intro hwide
    exact format_u64.scansTable
      (fun b' => (hscan b').trans (tableAt_of_wide hwide hplace)) (hroom 8)
  · intro hnarrow
    exact format_u32.scansTable
      (fun b' => (hscan b').trans (tableAt_of_narrow hnarrow hplace)) (hroom 4)

/-- A directory table is scanned from where it has been located to its null record or the end of the
directory. -/
theorem scansTable_of_locate {α : Type} {read : Bytes → Nat → Option α} {isNull : α → Bool}
    {bytes : α → List UInt8} {zero : α} {width slot : Nat} {kind : TableKind} {d : DataDirectory}
    (hf : RecordFormat read isNull bytes zero width) (hw : image.LiesWithin b)
    (hd : image.directory? slot = some d) (hplace : image.locate d.address d.size = .ok place) :
    ScansTable (fun b => directoryTable image slot kind (read b) isNull width)
      (fun entries => some ⟨entries, place.index⟩) b bytes width place.offset
      (d.size.toNat / width) kind := by
  refine hf.scansTable (fun b' => ?_) ?_
  · rw [directoryTable, hd]
    dsimp only
    rw [hplace]
    dsimp only
    cases sentinelTable? (read b') isNull width place.offset (d.size.toNat / width) <;> rfl
  · have hend : place.offset + d.size.toNat ≤ b.size := hw.le_size (Image.fits_of_locate hplace)
    exact Nat.le_trans (Nat.add_le_add_left (Nat.mul_div_le ..) _) hend

/-- In an accepted image, both directories of imports and all lookup tables are scanned up to their
first all-zero record, once it is known where they start. The error of a table without an end tells
the directories apart; a lookup table is called by the same name in both of them. -/
theorem scansTables_of_parse (h : Image.parse b = .ok image) :
    (∀ d place, image.directory? 1 = some d → image.locate d.address d.size = .ok place →
      ScansTable (importDirectory · image) (fun entries => some ⟨entries, place.index⟩) b
        ImportRecord.bytes 20 place.offset (d.size.toNat / 20) .importDirectory) ∧
    (∀ d place, image.directory? 13 = some d → image.locate d.address d.size = .ok place →
      ScansTable (delayDirectory · image) (fun entries => some ⟨entries, place.index⟩) b
        DelayRecord.bytes 32 place.offset (d.size.toNat / 32) .delayDirectory) ∧
    (∀ (r : ImportRecord) index rva place,
      rva = (if r.lookupTable ≠ 0 then r.lookupTable else r.addressTable) → rva ≠ 0 →
      image.locateIn index rva = .ok place → image.ScansLookup (r.entries · image index) b place) ∧
    ∀ (r : DelayRecord) index rva place,
      r.nameTable ≠ 0 → toRva r.nameTable.toUInt64 (r.base image) = .ok rva →
      image.locateIn index rva = .ok place →
        image.ScansLookup (r.entries · image index) b place := by
  have hw : image.LiesWithin b := Image.liesWithin_of_parse h
  refine ⟨fun d place hd hplace => scansTable_of_locate ImportRecord.format hw hd hplace,
    fun d place hd hplace => scansTable_of_locate DelayRecord.format hw hd hplace, ?_, ?_⟩
  · rintro r index rva place rfl hrva hplace
    exact scansLookup_of_locateIn hw hplace fun b' => if_neg hrva
  · intro r index rva place hnames hrva hplace
    refine scansLookup_of_locateIn hw hplace fun b' => ?_
    rw [DelayRecord.entries, if_neg hnames, hrva]
    rfl

/-- The tables of the importing file end where there is just room for it. -/
theorem scansTables_of_parse_importingFile :
    Image.parse importingFile = .ok importingImage ∧
      (∃ found, importDirectory importingFile importingImage = .ok found) ∧
      (∃ found, delayDirectory importingFile importingImage = .ok found) ∧
      (∃ found, ImportRecord.entries ⟨0, 0, 0, 4240, 4200⟩ importingFile importingImage 0 =
        .ok found) ∧
      ∃ found, DelayRecord.entries ⟨1, 4246, 0, 0, 4224, 0, 0, 0⟩ importingFile importingImage 0 =
        .ok found := by
  have h : Image.parse importingFile = .ok importingImage :=
    Fault.eq_ok_of_toOption (by decide +kernel)
  obtain ⟨hdirect, hdelayed, hlookup, hnames⟩ := scansTables_of_parse h
  have hdirectPlace : importingImage.locate 4096 40 = .ok (importingPlace 352) :=
    Fault.eq_ok_of_toOption (by decide +kernel)
  have hdelayedPlace : importingImage.locate 4136 64 = .ok (importingPlace 392) :=
    Fault.eq_ok_of_toOption (by decide +kernel)
  have hlookupPlace : importingImage.locateIn 0 4200 = .ok (importingPlace 456) :=
    Fault.eq_ok_of_toOption (by decide +kernel)
  have hnamesPlace : importingImage.locateIn 0 4224 = .ok (importingPlace 480) :=
    Fault.eq_ok_of_toOption (by decide +kernel)
  refine ⟨h, ?_, ?_, ?_, ?_⟩
  · exact (hdirect ⟨4096, 40⟩ _ rfl hdirectPlace).succeeds_iff.2 ⟨1, by decide, by decide +kernel⟩
  · exact (hdelayed ⟨4136, 64⟩ _ rfl hdelayedPlace).succeeds_iff.2 ⟨1, by decide, by decide +kernel⟩
  · exact ((hlookup _ 0 4200 _ rfl (by decide) hlookupPlace).wide rfl).succeeds_iff.2
      ⟨2, by decide, by decide +kernel⟩
  · exact ((hnames _ 0 4224 _ (by decide) rfl hnamesPlace).wide rfl).succeeds_iff.2
      ⟨1, by decide, by decide +kernel⟩

/-- A file whose section holds one entry of a lookup table, and no end. -/
def endlessFile : Bytes :=
  fileOf false [] 4 (ofWord 4 1)

/-- The image of that file. -/
def endlessImage : Image :=
  imageOf false [] 4 4

/-- So not every table is called by its own name when it has no end: a table of the delay-load
directory is called a lookup table, and not by the name that it has when it is missing. -/
theorem exists_delayNames_misnamed :
    ¬∀ (b : Bytes) (image : Image) (r : DelayRecord) (index : Nat) (rva : UInt32)
      (place : Location), Image.parse b = .ok image → r.nameTable ≠ 0 →
      toRva r.nameTable.toUInt64 (r.base image) = .ok rva → image.locateIn index rva = .ok place →
      ∀ fault, r.entries b image index = .error fault → fault = .endless .delayNames := by
  intro hall
  have hparse : Image.parse endlessFile = .ok endlessImage :=
    Fault.eq_ok_of_toOption (by decide +kernel)
  have hplace : endlessImage.locateIn 0 4096 = .ok ⟨224, 0, ⟨"", 4096, 4, 224, 4, 0⟩⟩ :=
    Fault.eq_ok_of_toOption (by decide +kernel)
  have hfault : DelayRecord.entries ⟨1, 0, 0, 0, 4096, 0, 0, 0⟩ endlessFile endlessImage 0 =
      .error (.endless .importLookup) := by
    decide +kernel
  have hsame := hall _ _ ⟨1, 0, 0, 0, 4096, 0, 0, 0⟩ 0 4096 _ hparse (by decide) rfl hplace _ hfault
  cases hsame

end Readers

end DllGraph
