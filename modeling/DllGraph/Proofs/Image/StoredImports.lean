import DllGraph.Proofs.Image.Address
import DllGraph.Proofs.Image.Text
import Mathlib.Data.List.Forall2

/-!
# Stored Imports

How imports are laid out in a file, and that what is laid out in this way is read back. The layout
is free but for what the format asks for: each table and each text may be at any address, as long as
a lookup table lies in the section of its directory table, and every object ends in the raw data of
the section where it starts.

The definitions follow the format from the inside out: an entry stands for a symbol, a lookup table
holds the entries of a DLL, a record describes a DLL, and a directory table holds records. For each
there is one lemma about its reader.

## Main definitions

* `Image.Holds`, the bytes that are stored at an address;
* `LookupEntry.StandsFor`, `Image.HoldsSymbols` and `ImportedDll.StoredAt`, how a symbol, a list of
  symbols and a DLL are stored;
* `Image.HoldsDirectory`, how a list of DLLs is stored.

## Main results

* `sentinelTable?_of_stores` — a table that is stored with its all-zero entry is read;
* `LookupEntry.StandsFor.decodeFrom_eq` — so is a symbol;
* `readImports_of_holdsDirectory` — so are the imports of an image.
-/

namespace DllGraph

open Bytes

variable {b : Bytes} {image : Image}

/-! ### Tables -/

/-- The bytes of a table, its all-zero entry included. -/
def tableBytes {α : Type} (bytes : α → List UInt8) (zero : α) (entries : List α) : List UInt8 :=
  (entries ++ [zero]).flatMap bytes

/-- A stored table takes its records and one more. -/
theorem length_tableBytes {α : Type} {bytes : α → List UInt8} {zero : α} {entries : List α}
    {width : Nat} (hwidth : ∀ e ∈ entries ++ [zero], (bytes e).length = width) :
    (tableBytes bytes zero entries).length = width * (entries.length + 1) := by
  rw [tableBytes, length_flatMap_bytes hwidth, List.length_append, List.length_singleton]

/-- A table that is stored, its all-zero entry included, is read up to this entry. -/
theorem sentinelTable?_of_stores {α : Type} {read? : Nat → Option α} {isNull : α → Bool}
    {bytes : α → List UInt8} {width offset cap : Nat} {entries : List α} {zero : α}
    (hread : ∀ e ∈ entries ++ [zero], ∀ offset, b.Stores offset (bytes e) → read? offset = some e)
    (hwidth : ∀ e ∈ entries ++ [zero], (bytes e).length = width)
    (hnull : ∀ e ∈ entries, isNull e = false) (hzero : isNull zero = true)
    (hcap : entries.length < cap) (h : b.Stores offset (tableBytes bytes zero entries)) :
    sentinelTable? read? isNull width offset cap = some entries := by
  induction entries generalizing offset cap with
  | nil =>
    obtain ⟨cap, rfl⟩ := Nat.exists_eq_add_of_lt hcap
    have hfirst : read? offset = some zero :=
      hread zero (List.mem_singleton.2 rfl) offset (by simpa [tableBytes] using h)
    rw [List.length_nil, Nat.zero_add, sentinelTable?, hfirst]
    exact if_pos hzero
  | cons e entries ih =>
    obtain ⟨cap, rfl⟩ := Nat.exists_eq_succ_of_ne_zero (Nat.ne_zero_of_lt hcap)
    rw [tableBytes, List.cons_append, List.flatMap_cons, stores_append,
      hwidth e List.mem_cons_self] at h
    have hfirst : read? offset = some e := hread e List.mem_cons_self offset h.1
    have hrest : sentinelTable? read? isNull width (offset + width) cap = some entries :=
      ih (fun e' he' => hread e' (List.mem_cons_of_mem e he'))
        (fun e' he' => hwidth e' (List.mem_cons_of_mem e he'))
        (fun e' he' => hnull e' (List.mem_cons_of_mem e he')) (Nat.lt_of_succ_lt_succ hcap) h.2
    rw [sentinelTable?, hfirst]
    dsimp only
    rw [hnull e List.mem_cons_self, hrest]
    rfl

/-! ### Texts -/

namespace Image

/-- What is stored at an address: these bytes, all of them in the raw data of the section that the
address lies in. -/
def Holds (image : Image) (b : Bytes) (rva : UInt32) (bytes : List UInt8) : Prop :=
  ∃ place, image.locate rva 1 = .ok place ∧ b.Stores place.offset bytes ∧
    place.offset + bytes.length ≤ place.host.rawEnd

instance (image : Image) (b : Bytes) (rva : UInt32) (bytes : List UInt8) :
    Decidable (image.Holds b rva bytes) :=
  match h : image.locate rva 1 with
  | .error _ => .isFalse (by rintro ⟨place, hplace, -⟩; rw [h] at hplace; cases hplace)
  | .ok place =>
    decidable_of_iff
      (b.Stores place.offset bytes ∧ place.offset + bytes.length ≤ place.host.rawEnd)
      ⟨fun hplace => ⟨place, h, hplace⟩, by
        rintro ⟨place', hplace', hheld⟩
        obtain rfl := Except.ok.inj (h.symm.trans hplace')
        exact hheld⟩

end Image

variable {rva : UInt32}

/-- A printable text that an image holds, with a zero byte behind it, is read. -/
theorem readAscii_of_holds {text : String} {maxLength : Nat} (hrva : rva ≠ 0)
    (hprintable : IsPrintable text) (hne : text ≠ "") (hmax : text.length < maxLength)
    (h : image.Holds b rva (textBytes text ++ [0])) :
    readAscii b image rva maxLength = .ok text := by
  obtain ⟨place, hplace, hstores, hend⟩ := h
  rw [List.length_append, length_textBytes, List.length_singleton] at hend
  exact readAscii_eq_ok_iff.2 ⟨hrva, place, hplace,
    readAsciiAt_eq_ok_iff.2 ⟨hprintable, hne, hstores, hmax, by omega⟩⟩

/-- A hint and a name that an image holds are read. -/
theorem readHintName_of_holds {hint : UInt16} {name : String} (hprintable : IsPrintable name)
    (hne : name ≠ "") (hmax : name.length < maxSymbolName)
    (h : image.Holds b rva (ofWord 2 hint.toNat ++ (textBytes name ++ [0]))) :
    readHintName b image rva = .ok (hint, name) := by
  obtain ⟨place, hplace, hstores, hend⟩ := h
  rw [stores_append, length_ofWord] at hstores
  simp only [List.length_append, length_ofWord, length_textBytes, List.length_singleton] at hend
  have htwo : image.locate rva 2 = .ok place := by
    obtain ⟨hhosts, hoffset, -⟩ := Image.locate_eq_ok_iff.1 hplace
    exact Image.locate_eq_ok_iff.2 ⟨hhosts, hoffset, Nat.le_trans (by simp) hend⟩
  have hhint : b.u16? place.offset = some hint := u16?_of_stores hstores.1
  have hname : readAsciiAt b place.host (place.offset + 2) (rva + 2) maxSymbolName = .ok name :=
    readAsciiAt_eq_ok_iff.2 ⟨hprintable, hne, hstores.2, hmax, by omega⟩
  simp only [readHintName, Fault.bind_eq_ok_iff, Fault.expect_eq_ok_iff, Fault.pure_eq_ok_iff]
  exact ⟨place, htwo, hint, hhint, name, hname, rfl⟩

/-! ### Symbols -/

/-- An address that is relative to nothing is taken as it is. -/
theorem toRva_toUInt64 (rva : UInt32) : toRva rva.toUInt64 0 = .ok rva := by
  rw [toRva, UInt64.sub_zero, UInt32.toUInt32_toUInt64]
  exact if_pos ⟨UInt64.zero_le, rva.toNat_lt_size⟩

/-- The bit of a lookup entry that tells an ordinal. -/
def Image.ordinalFlag (image : Image) : UInt64 :=
  if image.is64Bit then 0x8000000000000000 else 0x80000000

namespace LookupEntry

/-- A lookup entry stands for a symbol: it holds the ordinal, or the address of the hint and the
name. -/
inductive StandsFor (b : Bytes) (image : Image) : LookupEntry → ImportedSymbol → Prop
  | byOrdinal (ordinal : UInt16) :
    StandsFor b image ⟨image.ordinalFlag ||| ordinal.toUInt64, image.is64Bit⟩ (.byOrdinal ordinal)
  | byName {rva : UInt32} {hint : UInt16} {name : String} (address : rva ≠ 0)
    (low : rva.toNat < 0x80000000) (printable : IsPrintable name)
    (length : 1 ≤ name.length ∧ name.length ≤ 32767)
    (holds : image.Holds b rva (ofWord 2 hint.toNat ++ (textBytes name ++ [0]))) :
    StandsFor b image ⟨rva.toUInt64, image.is64Bit⟩ (.byName hint name)

/-- The bytes of a lookup entry. -/
def bytes (e : LookupEntry) : List UInt8 :=
  ofWord (if e.is64Bit then 8 else 4) e.value.toNat

/-- A small number has no bits in common with a mask whose low bits are clear. -/
theorem and_eq_zero_of_lt {x mask : UInt64} {n : Nat} (hx : x.toNat < Nat.pow 2 n)
    (hmask : mask.toNat % Nat.pow 2 n = 0) : x &&& mask = 0 := by
  -- Below `n` the mask has no bits, and from there on the number has none.
  refine UInt64.toNat_inj.1 (Nat.eq_of_testBit_eq fun i => ?_)
  rw [UInt64.toNat_and, Nat.testBit_and, UInt64.toNat_zero, Nat.zero_testBit]
  by_cases hi : i < n
  · have hclear : (mask.toNat % Nat.pow 2 n).testBit i = false := by
      rw [hmask, Nat.zero_testBit]
    rw [Nat.pow_eq, Nat.testBit_mod_two_pow, decide_eq_true hi, Bool.true_and] at hclear
    rw [hclear, Bool.and_false]
  · have hlarge : x.toNat < Nat.pow 2 i :=
      Nat.lt_of_lt_of_le hx (Nat.pow_le_pow_right (by decide) (Nat.le_of_not_lt hi))
    rw [Nat.testBit_lt_two_pow hlarge, Bool.false_and]

/-- What a mask takes of a flag with an ordinal is what it takes of the flag, if it spares the bits
of the ordinal. -/
theorem or_ordinal_and (flag : UInt64) (ordinal : UInt16) {mask : UInt64}
    (hmask : mask.toNat % 0x10000 = 0) :
    (flag ||| ordinal.toUInt64) &&& mask = flag &&& mask := by
  have hlow : ordinal.toUInt64.toNat < Nat.pow 2 16 := ordinal.toNat_lt_size
  have hnone : ordinal.toUInt64 &&& mask = 0 := and_eq_zero_of_lt hlow hmask
  have hnat : ordinal.toUInt64.toNat &&& mask.toNat = 0 := congrArg UInt64.toNat hnone
  refine UInt64.toNat_inj.1 ?_
  rw [UInt64.toNat_and, UInt64.toNat_or, Nat.and_or_distrib_right, hnat, Nat.or_zero,
    UInt64.toNat_and]

/-- An ordinal that is stored is read. -/
theorem decodeFrom_ordinalFlag (ordinal : UInt16) :
    decodeFrom ⟨image.ordinalFlag ||| ordinal.toUInt64, image.is64Bit⟩ b image 0 =
      .ok (.byOrdinal ordinal) := by
  -- The flag is neither among the 16 bits of the ordinal nor among the reserved ones.
  have hclear : image.ordinalFlag.toUInt16 = 0 := by
    rw [Image.ordinalFlag]
    cases image.is64Bit <;> rfl
  have hordinal : (image.ordinalFlag ||| ordinal.toUInt64).toUInt16 = ordinal := by
    rw [UInt64.toUInt16_or, UInt16.toUInt16_toUInt64, hclear, UInt16.zero_or]
  have hflag : isOrdinal ⟨image.ordinalFlag ||| ordinal.toUInt64, image.is64Bit⟩ = true := by
    rw [isOrdinal, Image.ordinalFlag]
    cases image.is64Bit <;> simp [or_ordinal_and]
  have hreserved : (image.ordinalFlag ||| ordinal.toUInt64) &&&
      reservedBits ⟨image.ordinalFlag ||| ordinal.toUInt64, image.is64Bit⟩ = 0 := by
    rw [reservedBits, Image.ordinalFlag]
    cases image.is64Bit with
    | true =>
      have hmask : (0x7FFFFFFFFFFF0000 : UInt64).toNat % 0x10000 = 0 := by decide
      exact (or_ordinal_and 0x8000000000000000 ordinal hmask).trans (by decide)
    | false =>
      have hmask : (0x7FFF0000 : UInt64).toNat % 0x10000 = 0 := by decide
      exact (or_ordinal_and 0x80000000 ordinal hmask).trans (by decide)
  have hread : LookupEntry.ordinal ⟨image.ordinalFlag ||| ordinal.toUInt64, image.is64Bit⟩ =
      .ok ordinal := by
    rw [LookupEntry.ordinal, hflag, hreserved, hordinal]
    rfl
  rw [decodeFrom, hflag, hread]
  rfl

/-- A low value has no flag, in either width. -/
theorem isOrdinal_of_lt {e : LookupEntry} (h : e.value.toNat < Nat.pow 2 31) :
    e.isOrdinal = false := by
  rw [isOrdinal]
  cases e.is64Bit <;> simp [and_eq_zero_of_lt h]

/-- A low value is an address. -/
theorem hintNameRva_of_lt {e : LookupEntry} (h : e.value.toNat < Nat.pow 2 31) :
    e.hintNameRva = .ok e.value.toUInt32 := by
  rw [hintNameRva, isOrdinal_of_lt h]
  simp [and_eq_zero_of_lt h]

/-- A symbol whose hint and name are stored is read. -/
theorem decodeFrom_toUInt64 {rva : UInt32} {hint : UInt16} {name : String}
    (low : rva.toNat < 0x80000000) (hread : readHintName b image rva = .ok (hint, name)) :
    decodeFrom ⟨rva.toUInt64, image.is64Bit⟩ b image 0 = .ok (.byName hint name) := by
  have hlow : rva.toUInt64.toNat < Nat.pow 2 31 := low
  have haddress : hintNameRva ⟨rva.toUInt64, image.is64Bit⟩ = .ok rva := by
    rw [hintNameRva_of_lt hlow, UInt32.toUInt32_toUInt64]
  rw [decodeFrom, isOrdinal_of_lt hlow]
  simp [haddress, Except.map, toRva_toUInt64, hread, bind, Except.bind, pure, Except.pure]

namespace StandsFor

variable {e : LookupEntry} {symbol : ImportedSymbol}

/-- An entry that stands for a symbol has the width of the image. -/
theorem is64Bit_eq (h : StandsFor b image e symbol) : e.is64Bit = image.is64Bit := by
  cases h <;> rfl

/-- An entry that stands for a symbol fits the width of the image. -/
theorem value_lt (h : StandsFor b image e symbol) :
    e.value.toNat < Nat.pow 256 image.lookupWidth := by
  rw [Image.lookupWidth]
  cases hwide : image.is64Bit with
  | true => exact e.value.toNat_lt_size
  | false =>
    cases h with
    | byOrdinal ordinal =>
      rw [Image.ordinalFlag, hwide, UInt64.toNat_or]
      exact Nat.or_lt_two_pow (n := 32) (by decide)
        (Nat.lt_trans (by simpa using ordinal.toNat_lt_size) (by decide))
    | byName address low =>
      simpa using Nat.lt_trans low (by decide)

/-- An entry that stands for a symbol does not end its table. -/
theorem isNull_eq_false (h : StandsFor b image e symbol) : e.isNull = false := by
  refine beq_eq_false_iff_ne.2 ?_
  cases h with
  | byOrdinal ordinal =>
    intro hzero
    have hflag := (UInt64.or_eq_zero_iff.1 hzero).1
    rw [Image.ordinalFlag] at hflag
    split at hflag <;> cases hflag
  | byName address =>
    intro hzero
    exact address (UInt32.toNat_inj.1 (congrArg UInt64.toNat hzero))

/-- An entry is decoded to the symbol that it stands for. -/
theorem decodeFrom_eq (h : StandsFor b image e symbol) : e.decodeFrom b image 0 = .ok symbol := by
  cases h with
  | byOrdinal ordinal => exact decodeFrom_ordinalFlag ordinal
  | byName address low printable length holds =>
    refine decodeFrom_toUInt64 low (readHintName_of_holds printable ?_ ?_ holds)
    · rintro rfl
      exact absurd length.1 (by decide)
    · exact Nat.lt_of_le_of_lt length.2 (by decide)

end StandsFor

/-- A lookup entry that is stored is read. -/
theorem read?_of_stores {e : LookupEntry} {offset : Nat} (hwide : e.is64Bit = image.is64Bit)
    (hvalue : e.value.toNat < Nat.pow 256 image.lookupWidth) (h : b.Stores offset e.bytes) :
    read? b image offset = some e := by
  obtain ⟨value, is64Bit⟩ := e
  obtain rfl : is64Bit = image.is64Bit := hwide
  rw [bytes] at h
  rw [Image.lookupWidth] at hvalue
  rw [read?]
  cases hwide : image.is64Bit with
  | true =>
    simp only [hwide, if_true] at h ⊢
    rw [u64?_of_stores h]
    rfl
  | false =>
    have hlow : value.toNat < UInt32.size := by simpa [hwide] using hvalue
    have hword : value.toUInt32.toNat = value.toNat := Nat.mod_eq_of_lt hlow
    simp only [hwide, Bool.false_eq_true, if_false] at h ⊢
    rw [← hword] at h
    rw [u32?_of_stores h, Option.map_some, ofUInt32]
    rw [show value.toUInt32.toUInt64 = value from UInt64.toNat_inj.1 hword]

end LookupEntry

/-- At an address in a given section, a lookup table for these symbols is stored, its zero entry
included. -/
def Image.HoldsSymbols (image : Image) (b : Bytes) (index : Nat) (rva : UInt32)
    (symbols : List ImportedSymbol) : Prop :=
  ∃ place entries, image.locateIn index rva = .ok place ∧
    List.Forall₂ (LookupEntry.StandsFor b image) entries symbols ∧
    b.Stores place.offset (tableBytes LookupEntry.bytes ⟨0, image.is64Bit⟩ entries) ∧
    place.offset + (tableBytes LookupEntry.bytes ⟨0, image.is64Bit⟩ entries).length ≤
      place.host.rawEnd

/-- The lookup table of these symbols is read. -/
theorem exists_tableAt_of_holdsSymbols {index : Nat} {symbols : List ImportedSymbol}
    (hcount : symbols.length ≤ 65535) (h : image.HoldsSymbols b index rva symbols) :
    ∃ entries, LookupEntry.tableAt b image index rva = .ok entries ∧
      List.Forall₂ (LookupEntry.StandsFor b image) entries symbols := by
  obtain ⟨place, entries, hplace, hentries, hstores, hend⟩ := h
  have hsymbol : ∀ e ∈ entries, ∃ symbol, LookupEntry.StandsFor b image e symbol :=
    ((List.forall₂_and_left _ _).1 (hentries.imp fun _ symbol h => ⟨⟨symbol, h⟩, h⟩)).1
  have hwide : ∀ e ∈ entries ++ [⟨0, image.is64Bit⟩], e.is64Bit = image.is64Bit := by
    intro e he
    rcases List.mem_append.1 he with he | he
    · obtain ⟨symbol, hsymbol⟩ := hsymbol e he
      exact hsymbol.is64Bit_eq
    · rw [List.mem_singleton.1 he]
  have hwidth : ∀ e ∈ entries ++ [⟨0, image.is64Bit⟩], e.bytes.length = image.lookupWidth := by
    intro e he
    rw [LookupEntry.bytes, length_ofWord, hwide e he, Image.lookupWidth]
  rw [length_tableBytes hwidth] at hend
  -- Neither of the two limits of the scan is reached before the zero entry.
  have hcap : entries.length <
      min maxLookupEntries ((place.host.rawEnd - place.offset) / image.lookupWidth) := by
    refine Nat.lt_min.2 ⟨Nat.lt_of_le_of_lt (hentries.length_eq ▸ hcount) (by decide), ?_⟩
    refine (Nat.le_div_iff_mul_le Image.lookupWidth_pos).2 ?_
    rw [Nat.mul_comm, Nat.succ_eq_add_one]
    omega
  refine ⟨entries, ?_, hentries⟩
  rw [LookupEntry.tableAt, hplace]
  refine Fault.expect_eq_ok_iff.2 (sentinelTable?_of_stores ?_ hwidth ?_ rfl hcap hstores)
  · intro e he offset hstored
    refine LookupEntry.read?_of_stores (hwide e he) ?_ hstored
    rcases List.mem_append.1 he with he | he
    · obtain ⟨symbol, hsymbol⟩ := hsymbol e he
      exact hsymbol.value_lt
    · rw [List.mem_singleton.1 he]
      exact Nat.pow_pos (by decide)
  · intro e he
    obtain ⟨symbol, hsymbol⟩ := hsymbol e he
    exact hsymbol.isNull_eq_false

/-- The entries of these symbols are decoded. -/
theorem map_decodeFrom_eq {entries : List LookupEntry} {symbols : List ImportedSymbol}
    (h : List.Forall₂ (LookupEntry.StandsFor b image) entries symbols) :
    entries.map (·.decodeFrom b image 0) = symbols.map .ok := by
  induction h with
  | nil => rfl
  | cons hfirst _ ih => rw [List.map_cons, List.map_cons, hfirst.decodeFrom_eq, ih]

/-! ### DLLs -/

/-- A DLL is stored: its name at one address, and its symbols at another one, which lies in a given
section. -/
structure ImportedDll.StoredAt (dll : ImportedDll) (b : Bytes) (image : Image) (index : Nat)
    (name table : UInt32) : Prop where
  printable : IsPrintable dll.name
  length : 1 ≤ dll.name.length ∧ dll.name.length ≤ 255
  nameAddress : name ≠ 0
  nameHeld : image.Holds b name (textBytes dll.name ++ [0])
  count : dll.symbols.length ≤ 65535
  tableAddress : table ≠ 0
  symbolsHeld : image.HoldsSymbols b index table dll.symbols

namespace ImportedDll.StoredAt

variable {dll : ImportedDll} {index : Nat} {name table : UInt32}

/-- The name of a stored DLL is read. -/
theorem readAscii_eq (h : dll.StoredAt b image index name table) :
    readAscii b image name maxDllName = .ok dll.name := by
  refine readAscii_of_holds h.nameAddress h.printable ?_ ?_ h.nameHeld
  · intro hempty
    exact absurd h.length.1 (by rw [hempty]; decide)
  · exact Nat.lt_of_le_of_lt h.length.2 (by decide)

/-- The symbols of a DLL are read from its lookup table, and none of them is a fault. -/
theorem readSymbols_eq (h : dll.StoredAt b image index name table) :
    readSymbols b image 0 (LookupEntry.tableAt b image index table) = ⟨dll.symbols, []⟩ := by
  obtain ⟨entries, htable, hentries⟩ := exists_tableAt_of_holdsSymbols h.count h.symbolsHeld
  rw [htable, readSymbols, map_decodeFrom_eq hentries, List.map_map, List.filterMap_map]
  have hsymbols : ImportedSymbol.ofResult ∘ Except.ok = id := rfl
  have hfaults : Fault.ofResult? ∘ Except.ok = fun _ : ImportedSymbol => none := rfl
  rw [hsymbols, List.map_id, hfaults, List.filterMap_none]

/-- So the DLL is read, as a whole. -/
theorem readDll_eq (h : dll.StoredAt b image index name table) :
    readDll b image dll.delayLoad 0 (readAscii b image name maxDllName)
      (LookupEntry.tableAt b image index table) = ⟨some dll, []⟩ := by
  rw [h.readAscii_eq, readDll, h.readSymbols_eq]

end ImportedDll.StoredAt

/-- A record of the import directory describes a DLL. The lookup table may be the address table. -/
structure ImportRecord.Describes (b : Bytes) (image : Image) (index : Nat) (r : ImportRecord)
    (dll : ImportedDll) : Prop where
  delayLoad : dll.delayLoad = false
  stored : dll.StoredAt b image index r.name
    (if r.lookupTable ≠ 0 then r.lookupTable else r.addressTable)

/-- A record of the delay-load directory describes a DLL. Its addresses are relative to the image
base. -/
structure DelayRecord.Describes (b : Bytes) (image : Image) (index : Nat) (r : DelayRecord)
    (dll : ImportedDll) : Prop where
  delayLoad : dll.delayLoad = true
  relative : r.isRelative = true
  stored : dll.StoredAt b image index r.name r.nameTable

section Records

variable {dll : ImportedDll} {index : Nat}

/-- The DLL that an import record describes is read. -/
theorem ImportRecord.Describes.readDll_eq {r : ImportRecord} (h : r.Describes b image index dll) :
    r.readDll b image index = ⟨some dll, []⟩ := by
  have htable : r.entries b image index = LookupEntry.tableAt b image index
      (if r.lookupTable ≠ 0 then r.lookupTable else r.addressTable) :=
    if_neg h.stored.tableAddress
  rw [ImportRecord.readDll, htable, ← h.delayLoad]
  exact h.stored.readDll_eq

/-- The DLL that a delay-load record describes is read. -/
theorem DelayRecord.Describes.readDll_eq {r : DelayRecord} (h : r.Describes b image index dll) :
    r.readDll b image index = ⟨some dll, []⟩ := by
  have hbase : r.base image = 0 := if_pos h.relative
  have hname : r.dllName b image = readAscii b image r.name maxDllName := by
    rw [DelayRecord.dllName, hbase, toRva_toUInt64]
    rfl
  have htable : r.entries b image index = LookupEntry.tableAt b image index r.nameTable := by
    rw [DelayRecord.entries, if_neg h.stored.tableAddress, hbase, toRva_toUInt64]
    rfl
  rw [DelayRecord.readDll, hname, htable, hbase, ← h.delayLoad]
  exact h.stored.readDll_eq

/-- The name of a DLL is not at the address zero, so its record does not end the table. -/
theorem ImportRecord.Describes.isNull_eq_false {r : ImportRecord}
    (h : r.Describes b image index dll) : r.isNull = false :=
  beq_eq_false_iff_ne.2 fun hzero => h.stored.nameAddress (congrArg ImportRecord.name hzero)

/-- A record that describes a DLL does not end its table. -/
theorem DelayRecord.Describes.isNull_eq_false {r : DelayRecord}
    (h : r.Describes b image index dll) : r.isNull = false :=
  beq_eq_false_iff_ne.2 fun hzero => h.stored.nameAddress (congrArg DelayRecord.name hzero)

end Records

/-! ### Directories -/

/-- A list of DLLs is stored as a directory table whose records describe them, with an all-zero
record after them. The directory that the image declares lies in the raw data of one section, and
the table with its all-zero record lies in the directory. An image without the directory has no
DLLs. -/
inductive Image.HoldsDirectory {α : Type} (image : Image) (b : Bytes) (slot : Nat)
    (bytes : α → List UInt8) (zero : α) (describes : Nat → α → ImportedDll → Prop) :
    List ImportedDll → Prop
  | absent (directory : image.directory? slot = none) :
    HoldsDirectory image b slot bytes zero describes []
  | declared {d : DataDirectory} {place : Location} {records : List α} {dlls : List ImportedDll}
    (directory : image.directory? slot = some d)
    (within : image.locate d.address d.size = .ok place)
    (stores : b.Stores place.offset (tableBytes bytes zero records))
    (fits : (tableBytes bytes zero records).length ≤ d.size.toNat)
    (described : List.Forall₂ (describes place.index) records dlls) :
    HoldsDirectory image b slot bytes zero describes dlls

/-- If what each record describes is read from it, then what all of them describe is read, and
without a fault. -/
theorem map_read_eq {α : Type} {describes : α → ImportedDll → Prop}
    {read : α → Salvaged (Option ImportedDll)}
    (hread : ∀ r dll, describes r dll → read r = ⟨some dll, []⟩) {records : List α}
    {dlls : List ImportedDll} (h : List.Forall₂ describes records dlls) :
    records.map read = dlls.map fun dll => ⟨some dll, []⟩ := by
  induction h with
  | nil => rfl
  | cons hfirst _ ih => rw [List.map_cons, List.map_cons, hread _ _ hfirst, ih]

/-- The DLLs of a directory table are read, if its records can be told and each is read as the DLL
that it describes. -/
theorem readDlls_of_holdsDirectory {α : Type} {slot width : Nat} {kind : TableKind}
    {bytes : α → List UInt8} {zero : α} {describes : Nat → α → ImportedDll → Prop}
    {read? : Nat → Option α} {isNull : α → Bool} {read : α → Nat → Salvaged (Option ImportedDll)}
    (hread? : ∀ r offset, b.Stores offset (bytes r) → read? offset = some r)
    (hwidth : ∀ r, (bytes r).length = width) (hpos : 0 < width) (hzero : isNull zero = true)
    (hnull : ∀ index r dll, describes index r dll → isNull r = false)
    (hread : ∀ index r dll, describes index r dll → read r index = ⟨some dll, []⟩)
    {dlls : List ImportedDll} (h : image.HoldsDirectory b slot bytes zero describes dlls) :
    readDlls read (directoryTable image slot kind read? isNull width) = ⟨dlls, []⟩ := by
  cases h with
  | absent directory =>
    rw [directoryTable, directory]
    rfl
  | @declared d place records _ directory within stores fits described =>
    have hrecords : ∀ r ∈ records, isNull r = false :=
      ((List.forall₂_and_left _ _).1 (described.imp fun _ _ h => ⟨hnull _ _ _ h, h⟩)).1
    rw [length_tableBytes fun r _ => hwidth r] at fits
    have hcap : records.length < d.size.toNat / width :=
      (Nat.le_div_iff_mul_le hpos).2 (by rwa [Nat.mul_comm])
    have hentries : sentinelTable? read? isNull width place.offset (d.size.toNat / width) =
        some records :=
      sentinelTable?_of_stores (fun r _ => hread? r) (fun r _ => hwidth r) hrecords hzero hcap
        stores
    have hdlls : records.map (read · place.index) = dlls.map fun dll => ⟨some dll, []⟩ :=
      map_read_eq (hread place.index) described
    simp only [directoryTable, directory, within, hentries, readDlls, hdlls]
    simp [List.filterMap_map, List.flatMap_map]

/-- The imports that are stored in an image are read, and without a fault. -/
theorem readImports_of_holdsDirectory {direct delayed : List ImportedDll}
    (hdirect : image.HoldsDirectory b 1 ImportRecord.bytes .zero
      (ImportRecord.Describes b image) direct)
    (hdelayed : image.HoldsDirectory b 13 DelayRecord.bytes .zero
      (DelayRecord.Describes b image) delayed) :
    readImports b image = ⟨⟨direct ++ delayed⟩, []⟩ := by
  have hdirectRead : readDlls (ImportRecord.readDll · b image) (importDirectory b image) =
      ⟨direct, []⟩ :=
    readDlls_of_holdsDirectory (fun _ _ => ImportRecord.read?_of_stores) ImportRecord.length_bytes
      (by decide) rfl (fun _ _ _ h => h.isNull_eq_false) (fun _ _ _ h => h.readDll_eq) hdirect
  have hdelayedRead : readDlls (DelayRecord.readDll · b image) (delayDirectory b image) =
      ⟨delayed, []⟩ :=
    readDlls_of_holdsDirectory (fun _ _ => DelayRecord.read?_of_stores) DelayRecord.length_bytes
      (by decide) rfl (fun _ _ _ h => h.isNull_eq_false) (fun _ _ _ h => h.readDll_eq) hdelayed
  rw [readImports, hdirectRead, hdelayedRead]
  rfl

/-- An import directory, and after it a delay-load directory. -/
def importingDirectories : List DataDirectory :=
  [⟨0, 0⟩, ⟨4096, 40⟩] ++ List.replicate 11 ⟨0, 0⟩ ++ [⟨4136, 64⟩]

/-- A wide file that imports from one DLL by name and by ordinal, through the address table, and
from another one when it is first used. -/
def importingFile : Bytes :=
  fileOf true importingDirectories 160
    (tableBytes ImportRecord.bytes .zero [⟨0, 0, 0, 4240, 4200⟩] ++
      tableBytes DelayRecord.bytes .zero [⟨1, 4246, 0, 0, 4224, 0, 0, 0⟩] ++
      tableBytes LookupEntry.bytes ⟨0, true⟩ [⟨4252, true⟩, ⟨0x8000000000000007, true⟩] ++
      tableBytes LookupEntry.bytes ⟨0, true⟩ [⟨0x8000000000000005, true⟩] ++
      textBytes "A.dll" ++ [0] ++ textBytes "B.dll" ++ [0] ++
      ofWord 2 3 ++ textBytes "f" ++ [0])

/-- The image of that file. -/
def importingImage : Image :=
  imageOf true importingDirectories 160 160

/-- A place in that file. -/
def importingPlace (offset : Nat) : Location :=
  ⟨offset, 0, ⟨"", 4096, 160, 352, 160, 0⟩⟩

/-- Both DLLs of that file are read, with their symbols. -/
theorem readImports_importingFile :
    Image.parse importingFile = .ok importingImage ∧
      readImports importingFile importingImage =
        ⟨⟨[⟨"A.dll", false, [.byName 3 "f", .byOrdinal 7]⟩, ⟨"B.dll", true, [.byOrdinal 5]⟩]⟩,
          []⟩ := by
  have hname : LookupEntry.StandsFor importingFile importingImage ⟨UInt32.toUInt64 4252, true⟩
      (.byName 3 "f") :=
    .byName (by decide) (by decide) (by decide) (by decide)
      ⟨importingPlace 508, Fault.eq_ok_of_toOption (by decide +kernel), by decide +kernel,
        by decide⟩
  have hfirst : ImportRecord.Describes importingFile importingImage 0 ⟨0, 0, 0, 4240, 4200⟩
      ⟨"A.dll", false, [.byName 3 "f", .byOrdinal 7]⟩ := by
    refine ⟨rfl, by decide, by decide, by decide, ⟨importingPlace 496, ?_⟩, by decide, by decide,
      ⟨importingPlace 456, _, ?_, .cons hname (.cons (.byOrdinal 7) .nil), ?_⟩⟩
    · exact ⟨Fault.eq_ok_of_toOption (by decide +kernel), by decide +kernel, by decide⟩
    · exact Fault.eq_ok_of_toOption (by decide +kernel)
    · exact ⟨by decide +kernel, by decide⟩
  have hsecond : DelayRecord.Describes importingFile importingImage 0
      ⟨1, 4246, 0, 0, 4224, 0, 0, 0⟩ ⟨"B.dll", true, [.byOrdinal 5]⟩ := by
    refine ⟨rfl, by decide, by decide, by decide, by decide, ⟨importingPlace 502, ?_⟩, by decide,
      by decide, ⟨importingPlace 480, _, ?_, .cons (.byOrdinal 5) .nil, ?_⟩⟩
    · exact ⟨Fault.eq_ok_of_toOption (by decide +kernel), by decide +kernel, by decide⟩
    · exact Fault.eq_ok_of_toOption (by decide +kernel)
    · exact ⟨by decide +kernel, by decide⟩
  have hdirect : importingImage.directory? 1 = some ⟨4096, 40⟩ := by decide
  have hdirectPlace : importingImage.locate 4096 40 = .ok (importingPlace 352) :=
    Fault.eq_ok_of_toOption (by decide +kernel)
  have hdelayed : importingImage.directory? 13 = some ⟨4136, 64⟩ := by decide
  have hdelayedPlace : importingImage.locate 4136 64 = .ok (importingPlace 392) :=
    Fault.eq_ok_of_toOption (by decide +kernel)
  exact ⟨Fault.eq_ok_of_toOption (by decide +kernel), readImports_of_holdsDirectory
    (.declared hdirect hdirectPlace (by decide +kernel) (by decide) (.cons hfirst .nil))
    (.declared hdelayed hdelayedPlace (by decide +kernel) (by decide) (.cons hsecond .nil))⟩

end DllGraph
