import DllGraph.Proofs.Image.Reading

/-!
# Writing Records

The other direction of reading: how the words and the records of an image are laid out as bytes. A
file stores some bytes at an offset if they are what it holds from there on, and a record that is
stored is the one that is read.

## Main definitions

* `Bytes.ofWord`, the bytes of a word;
* `Bytes.Stores`, the bytes that a file holds from an offset on;
* `ImportRecord.bytes` and its like, the bytes of a record;
* `fileOf` and `imageOf`, small files and their images.

## Main results

* `Bytes.word?_of_stores` — a word that is stored is read;
* `ImportRecord.read?_of_stores` and its like — so is a record;
* `Bytes.records?_of_stores` — and a row of them.
-/

namespace DllGraph

namespace Bytes

/-- The bytes of a number, the lowest first. -/
def ofWord : (width n : Nat) → List UInt8
  | 0, _ => []
  | width + 1, n => UInt8.ofNat n :: ofWord width (n / 256)

/-- A word is stored in as many bytes as its width. -/
@[simp] theorem length_ofWord (width n : Nat) : (ofWord width n).length = width := by
  induction width generalizing n with
  | zero => rfl
  | succ width ih => rw [ofWord, List.length_cons, ih]

/-- From an offset on, a file holds these bytes. -/
def Stores (b : Bytes) (offset : Nat) (bytes : List UInt8) : Prop :=
  ∀ i < bytes.length, b[offset + i]? = bytes[i]?

/-- The bytes of a file can be looked up in the list of them. -/
theorem getElem?_toList (b : Bytes) (i : Nat) : b.data.toList[i]? = b[i]? := by
  rw [Array.getElem?_toList]
  rfl

/-- Bytes are stored at an offset if and only if they are what is cut out there. -/
theorem stores_iff_take_drop {b : Bytes} {offset : Nat} {bytes : List UInt8} :
    b.Stores offset bytes ↔ (b.data.toList.drop offset).take bytes.length = bytes := by
  constructor
  · intro h
    refine List.ext_getElem? fun i => ?_
    by_cases hi : i < bytes.length
    · rw [List.getElem?_take_of_lt hi, List.getElem?_drop, getElem?_toList, h i hi]
    · rw [List.getElem?_take_eq_none (by omega), List.getElem?_eq_none (by omega)]
  · intro h i hi
    have hsame : ((b.data.toList.drop offset).take bytes.length)[i]? = bytes[i]? := by rw [h]
    rwa [List.getElem?_take_of_lt hi, List.getElem?_drop, getElem?_toList] at hsame

instance (b : Bytes) (offset : Nat) (bytes : List UInt8) : Decidable (b.Stores offset bytes) :=
  decidable_of_iff _ stores_iff_take_drop.symm

variable {b : Bytes} {offset : Nat}

theorem stores_nil : b.Stores offset [] := nofun

/-- Bytes are stored if and only if the first one is there and the others follow it. -/
theorem stores_cons {c : UInt8} {rest : List UInt8} :
    b.Stores offset (c :: rest) ↔ b[offset]? = some c ∧ b.Stores (offset + 1) rest := by
  constructor
  · intro h
    refine ⟨h 0 (Nat.succ_pos _), fun i hi => ?_⟩
    rw [Nat.add_assoc, Nat.add_comm 1 i]
    exact h (i + 1) (Nat.succ_lt_succ hi)
  · rintro ⟨hfirst, hrest⟩ i hi
    cases i with
    | zero => exact hfirst
    | succ i =>
      rw [← Nat.add_assoc, Nat.add_right_comm]
      exact hrest i (Nat.lt_of_succ_lt_succ hi)

/-- Bytes are stored one part after the other. -/
theorem stores_append {front back : List UInt8} :
    b.Stores offset (front ++ back) ↔
      b.Stores offset front ∧ b.Stores (offset + front.length) back := by
  induction front generalizing offset with
  | nil => simp [stores_nil]
  | cons c front ih =>
    rw [List.cons_append, stores_cons, stores_cons, ih, and_assoc, List.length_cons,
      Nat.add_assoc, Nat.add_comm 1]

/-- What a file stores lies in the file. -/
theorem Stores.le_size {bytes : List UInt8} (h : b.Stores offset bytes) (hne : bytes ≠ []) :
    offset + bytes.length ≤ b.size := by
  have hpos : 0 < bytes.length := List.length_pos_iff.2 hne
  have hlast := h (bytes.length - 1) (by omega)
  refine Nat.le_of_not_lt fun hlt => ?_
  rw [getElem?_neg b _ (by omega), getElem?_pos bytes _ (by omega)] at hlast
  cases hlast

/-- A word that is stored is read. -/
theorem word?_of_stores {width n : Nat} (h : b.Stores offset (ofWord width n))
    (hn : n < Nat.pow 256 width) : word? b offset width = some n := by
  induction width generalizing offset n with
  | zero =>
    obtain rfl : n = 0 := Nat.lt_one_iff.1 hn
    rw [word?]
  | succ width ih =>
    rw [ofWord, stores_cons] at h
    have hhigh : word? b (offset + 1) width = some (n / 256) :=
      ih h.2 (Nat.div_lt_of_lt_mul (Nat.mul_comm 256 _ ▸ hn))
    have hlow : (UInt8.ofNat n).toNat = n % 256 := UInt8.toNat_ofNat
    simp only [word?, h.1, hhigh, Option.bind_eq_bind, Option.bind_some, hlow]
    rw [Nat.mod_add_div]

/-- A word that is read is stored. -/
theorem stores_of_word? {offset width n : Nat} (h : word? b offset width = some n) :
    b.Stores offset (ofWord width n) := by
  induction width generalizing offset n with
  | zero => exact stores_nil
  | succ width ih =>
    simp only [word?, Option.bind_eq_bind, Option.bind_eq_some_iff, Option.some.injEq] at h
    obtain ⟨low, hlow, high, hhigh, rfl⟩ := h
    have hbyte : low.toNat < 256 := low.toNat_lt_size
    have hdiv : (low.toNat + 256 * high) / 256 = high := by omega
    have hfirst : UInt8.ofNat (low.toNat + 256 * high) = low := by
      rw [← UInt8.toNat_inj, UInt8.toNat_ofNat']
      omega
    rw [ofWord, stores_cons, hdiv, hfirst]
    exact ⟨hlow, ih hhigh⟩

/-- A 16-bit word that is stored is read. -/
theorem u16?_of_stores {w : UInt16} (h : b.Stores offset (ofWord 2 w.toNat)) :
    b.u16? offset = some w := by
  rw [u16?, word?_of_stores h w.toNat_lt_size, Option.map_some, UInt16.ofNat_toNat]

/-- A 32-bit word that is stored is read. -/
theorem u32?_of_stores {w : UInt32} (h : b.Stores offset (ofWord 4 w.toNat)) :
    b.u32? offset = some w := by
  rw [u32?, word?_of_stores h w.toNat_lt_size, Option.map_some, UInt32.ofNat_toNat]

/-- A 64-bit word that is stored is read. -/
theorem u64?_of_stores {w : UInt64} (h : b.Stores offset (ofWord 8 w.toNat)) :
    b.u64? offset = some w := by
  rw [u64?, word?_of_stores h w.toNat_lt_size, Option.map_some, UInt64.ofNat_toNat]

/-- Records of one width take as many times the width as there are of them. -/
theorem length_flatMap_bytes {α : Type} {bytes : α → List UInt8} {width : Nat} {entries : List α}
    (hwidth : ∀ e ∈ entries, (bytes e).length = width) :
    (entries.flatMap bytes).length = width * entries.length := by
  rw [List.length_flatMap, List.map_congr_left hwidth, List.map_const', List.sum_replicate_nat,
    Nat.mul_comm]

/-- A row of records is read if they are stored one after the other. -/
theorem records?_of_stores {α : Type} {read? : Nat → Option α} {bytes : α → List UInt8}
    {width : Nat} (hread : ∀ e offset, b.Stores offset (bytes e) → read? offset = some e)
    (hwidth : ∀ e, (bytes e).length = width) {entries : List α}
    (h : b.Stores offset (entries.flatMap bytes)) :
    records? read? width offset entries.length = some entries := by
  induction entries generalizing offset with
  | nil => rfl
  | cons e entries ih =>
    rw [List.flatMap_cons, stores_append, hwidth e] at h
    simp only [List.length_cons, records?, hread e offset h.1, ih h.2, Option.bind_eq_bind,
      Option.bind_some]

end Bytes

/-! ### Records -/

open Bytes

/-- The bytes of 32-bit words, one after the other. -/
def wordBytes (words : List UInt32) : List UInt8 :=
  words.flatMap fun w => ofWord 4 w.toNat

/-- Words take four bytes each. -/
theorem length_wordBytes (words : List UInt32) : (wordBytes words).length = 4 * words.length :=
  length_flatMap_bytes fun _ _ => length_ofWord 4 _

/-- The bytes of 16-bit words, one after the other. -/
def halfWordBytes (words : List UInt16) : List UInt8 :=
  words.flatMap fun w => ofWord 2 w.toNat

/-- Of stored words the first is read, and the others follow it. -/
theorem stores_wordBytes_cons {b : Bytes} {offset : Nat} {w : UInt32} {words : List UInt32} :
    b.Stores offset (wordBytes (w :: words)) →
      b.u32? offset = some w ∧ b.Stores (offset + 4) (wordBytes words) := by
  intro h
  rw [wordBytes, List.flatMap_cons, stores_append, length_ofWord] at h
  exact ⟨u32?_of_stores h.1, h.2⟩

namespace ImportRecord

/-- The bytes of an entry of the import directory table. -/
def bytes (r : ImportRecord) : List UInt8 :=
  wordBytes [r.lookupTable, r.timestamp, r.forwarderChain, r.name, r.addressTable]

/-- An import record takes the bytes of its fields. -/
theorem length_bytes (r : ImportRecord) : r.bytes.length = size :=
  length_wordBytes _

/-- An import record that is stored is read. -/
theorem read?_of_stores {b : Bytes} {offset : Nat} {r : ImportRecord}
    (h : b.Stores offset r.bytes) : read? b offset = some r := by
  obtain ⟨hlookup, h⟩ := stores_wordBytes_cons h
  obtain ⟨htimestamp, h⟩ := stores_wordBytes_cons h
  obtain ⟨hchain, h⟩ := stores_wordBytes_cons h
  obtain ⟨hname, h⟩ := stores_wordBytes_cons h
  obtain ⟨haddress, -⟩ := stores_wordBytes_cons h
  simp [read?, hlookup, htimestamp, hchain, hname, haddress]

end ImportRecord

namespace DelayRecord

/-- The bytes of an entry of the delay-load directory table. -/
def bytes (r : DelayRecord) : List UInt8 :=
  wordBytes [r.attributes, r.name, r.moduleHandle, r.addressTable, r.nameTable,
    r.boundAddressTable, r.unloadAddressTable, r.timestamp]

/-- A delay-load record takes the bytes of its fields. -/
theorem length_bytes (r : DelayRecord) : r.bytes.length = size :=
  length_wordBytes _

/-- A delay-load record that is stored is read. -/
theorem read?_of_stores {b : Bytes} {offset : Nat} {r : DelayRecord}
    (h : b.Stores offset r.bytes) : read? b offset = some r := by
  obtain ⟨hattributes, h⟩ := stores_wordBytes_cons h
  obtain ⟨hname, h⟩ := stores_wordBytes_cons h
  obtain ⟨hhandle, h⟩ := stores_wordBytes_cons h
  obtain ⟨haddress, h⟩ := stores_wordBytes_cons h
  obtain ⟨hnames, h⟩ := stores_wordBytes_cons h
  obtain ⟨hbound, h⟩ := stores_wordBytes_cons h
  obtain ⟨hunload, h⟩ := stores_wordBytes_cons h
  obtain ⟨htimestamp, -⟩ := stores_wordBytes_cons h
  simp [read?, hattributes, hname, hhandle, haddress, hnames, hbound, hunload, htimestamp]

end DelayRecord

namespace ExportRecord

/-- The bytes of the export directory. -/
def bytes (r : ExportRecord) : List UInt8 :=
  wordBytes [r.characteristics, r.timestamp] ++
    (ofWord 2 r.majorVersion.toNat ++ ofWord 2 r.minorVersion.toNat) ++
    wordBytes [r.name, r.ordinalBase, r.addressCount, r.nameCount, r.addressTable, r.nameTable,
      r.ordinalTable]

/-- An export directory takes the bytes of its fields. -/
theorem length_bytes (r : ExportRecord) : r.bytes.length = size := by
  rw [bytes, List.length_append, List.length_append, List.length_append, length_wordBytes,
    length_wordBytes, length_ofWord, length_ofWord]
  rfl

/-- An export directory that is stored is read. -/
theorem read?_of_stores {b : Bytes} {offset : Nat} {r : ExportRecord}
    (h : b.Stores offset r.bytes) : read? b offset = some r := by
  rw [bytes, stores_append, stores_append, stores_append, List.length_append, List.length_append,
    length_wordBytes, length_ofWord, length_ofWord] at h
  obtain ⟨⟨h, hmajor, hminor⟩, hrest⟩ := h
  obtain ⟨hcharacteristics, h⟩ := stores_wordBytes_cons h
  obtain ⟨htimestamp, -⟩ := stores_wordBytes_cons h
  obtain ⟨hname, h⟩ := stores_wordBytes_cons hrest
  obtain ⟨hbase, h⟩ := stores_wordBytes_cons h
  obtain ⟨haddresses, h⟩ := stores_wordBytes_cons h
  obtain ⟨hnames, h⟩ := stores_wordBytes_cons h
  obtain ⟨haddressTable, h⟩ := stores_wordBytes_cons h
  obtain ⟨hnameTable, h⟩ := stores_wordBytes_cons h
  obtain ⟨hordinalTable, -⟩ := stores_wordBytes_cons h
  have hmajor := u16?_of_stores hmajor
  have hminor := u16?_of_stores hminor
  simp only [List.length_cons, List.length_nil, Nat.add_assoc, Nat.reduceAdd, Nat.reduceMul]
    at hmajor hminor hname hbase haddresses hnames haddressTable hnameTable hordinalTable
  simp [read?, hcharacteristics, htimestamp, hmajor, hminor, hname, hbase, haddresses, hnames,
    haddressTable, hnameTable, hordinalTable]

end ExportRecord

/-! ### Small files -/

/-- The bytes of a data directory. -/
def DataDirectory.bytes (d : DataDirectory) : List UInt8 :=
  wordBytes [d.address, d.size]

/-- The bytes of a section record that says where the section lies, and nothing else. -/
def SectionRecord.bytesOf (address size pointer declared : UInt32) : List UInt8 :=
  List.replicate 8 0 ++ wordBytes [size, address, declared, pointer, 0, 0, 0, 0]

/-- A file of one section, of either width. The section is loaded at the address 4096, and it may
declare more raw data than there is. -/
def fileOf (is64Bit : Bool) (directories : List DataDirectory) (declared : UInt32)
    (contents : List UInt8) : Bytes :=
  let fixed := if is64Bit then 112 else 96
  let declaredSize := fixed + 8 * directories.length
  ⟨([0x4D, 0x5A] ++ List.replicate 58 0 ++ ofWord 4 64 ++
    ofWord 4 Image.signature.toNat ++ ofWord 2 0x14C ++ ofWord 2 1 ++ List.replicate 12 0 ++
      ofWord 2 declaredSize ++ ofWord 2 0x2102 ++
    ofWord 2 (if is64Bit then 0x20B else 0x10B) ++ List.replicate (fixed - 6) 0 ++
      ofWord 4 directories.length ++ directories.flatMap DataDirectory.bytes ++
    SectionRecord.bytesOf 4096 (UInt32.ofNat contents.length)
      (UInt32.ofNat (128 + declaredSize)) declared ++
    contents).toArray⟩

/-- The image of such a file, whose section takes `size` bytes once it is loaded and has `rawSize`
bytes of raw data. -/
def imageOf (is64Bit : Bool) (directories : List DataDirectory) (size rawSize : UInt32) :
    Image where
  is64Bit := is64Bit
  machine := 0x14C
  characteristics := 0x2102
  timestamp := 0
  imageBase := 0
  subsystem := 0
  directories := directories
  sections :=
    let declaredSize := (if is64Bit then 112 else 96) + 8 * directories.length
    [⟨"", 4096, size, UInt32.ofNat (128 + declaredSize), rawSize, 0⟩]

end DllGraph
