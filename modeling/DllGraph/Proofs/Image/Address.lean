import DllGraph.Proofs.Image.Headers
import DllGraph.Proofs.Image.Writing

/-!
# Addresses Lead into the File

The choke point of all readers is the translation of an address. This module says exactly when it
succeeds and with what place, and that on an accepted image such a place lies in the raw data of its
section, which in turn lies in the file. So a reader that has translated the address of an object
never asks for a byte that is not there: of the faults that it can report, those of a read that
fails never occur.

## Main definitions

* `Image.Hosts`, the section that decides about an address;
* `Location.Fits`, the places of objects within the raw data of a section of the image;
* `Unterminated`, the tables that have no end within their room;
* `Image.ReadsWithin`, the only ways in which the readers of an image can fail.

## Main results

* `Image.locate_eq_ok_iff` and `Image.locateIn_eq_ok_iff` — when an address is translated;
* `Image.readsWithin_of_parse` — on an accepted image, a translated address lies in the file, and no
  read that follows fails.
-/

namespace DllGraph

namespace Image

variable {image : Image} {rva size : UInt32} {index : Nat} {place : Location}

/-- The first section of an image whose raw data covers an address. -/
structure Hosts (image : Image) (rva : UInt32) (index : Nat) (s : Section) : Prop where
  getElem? : image.sections[index]? = some s
  covers : s.covers rva = true
  first : ∀ i < index, ∀ other, image.sections[i]? = some other → other.covers rva = false

/-- The section that is found for an address is the first one whose raw data covers it. -/
theorem find?_covers_eq_some_iff {s : Section} :
    image.sections.zipIdx.find? (·.1.covers rva) = some (s, index) ↔ image.Hosts rva index s := by
  rw [List.find?_eq_some_iff_getElem]
  constructor
  · rintro ⟨hcovers, i, hi, heq, hfirst⟩
    rw [List.getElem_zipIdx, Prod.mk.injEq, Nat.zero_add] at heq
    obtain ⟨hs, rfl⟩ := heq
    rw [List.length_zipIdx] at hi
    refine ⟨List.getElem?_eq_some_iff.2 ⟨hi, hs⟩, hcovers, fun j hj other hother => ?_⟩
    obtain ⟨hlt, rfl⟩ := List.getElem?_eq_some_iff.1 hother
    simpa using hfirst j hj
  · rintro ⟨hget, hcovers, hfirst⟩
    obtain ⟨hlt, hs⟩ := List.getElem?_eq_some_iff.1 hget
    refine ⟨hcovers, index, by simpa using hlt, by simp [hs], fun j hj => ?_⟩
    simpa using hfirst j hj _ (List.getElem?_eq_getElem (Nat.lt_trans hj hlt))

/-- An object is found exactly when the first section that covers its address holds all of it. -/
theorem locate_eq_ok_iff :
    image.locate rva size = .ok place ↔ image.Hosts rva place.index place.host ∧
      place.offset = place.host.offsetOf rva ∧
      place.offset + size.toNat ≤ place.host.rawEnd := by
  rw [locate, ← find?_covers_eq_some_iff]
  cases hfind : image.sections.zipIdx.find? (·.1.covers rva) with
  | none => simp
  | some found =>
    obtain ⟨s, i⟩ := found
    dsimp only
    constructor
    · intro h
      split at h
      · cases h
      · next hfits =>
        cases h
        exact ⟨rfl, rfl, Nat.le_of_not_lt hfits⟩
    · rintro ⟨heq, hoffset, hfits⟩
      cases heq
      rw [hoffset] at hfits
      rw [if_neg (Nat.not_lt_of_le hfits), ← hoffset]

/-- An address is found in a section exactly when the section spans it, and has raw data there. -/
theorem locateIn_eq_ok_iff :
    image.locateIn index rva = .ok place ↔ image.sections[index]? = some place.host ∧
      place.index = index ∧ place.host.spans rva = true ∧
      place.offset = place.host.offsetOf rva ∧ place.offset < place.host.rawEnd := by
  rw [locateIn]
  cases hs : image.sections[index]? with
  | none => simp
  | some s =>
    dsimp only
    constructor
    · intro h
      split at h
      · next hspans =>
        split at h
        · cases h
        · next hend =>
          cases h
          exact ⟨rfl, rfl, hspans, rfl, Nat.lt_of_not_le hend⟩
      · cases h
    · rintro ⟨heq, hindex, hspans, hoffset, hend⟩
      cases heq
      rw [hoffset] at hend
      rw [if_pos hspans, if_neg (Nat.not_le_of_lt hend), ← hoffset, ← hindex]

end Image

/-! ### Places in a file -/

/-- A covered address leads into the raw data. -/
theorem Section.offsetOf_lt_rawEnd {s : Section} {rva : UInt32} (h : s.covers rva = true) :
    s.offsetOf rva < s.rawEnd := by
  simp only [covers, Bool.and_eq_true, decide_eq_true_eq] at h
  rw [offsetOf, rawEnd]
  omega

/-- A place at which an object of `size` bytes lies in the raw data of a section of the image. -/
structure Location.Fits (place : Location) (image : Image) (size : Nat) : Prop where
  host : image.sections[place.index]? = some place.host
  le_offset : place.host.rawPointer.toNat ≤ place.offset
  le_rawEnd : place.offset + size ≤ place.host.rawEnd

namespace Image

variable {b : Bytes} {image : Image} {rva size : UInt32} {index : Nat} {place : Location}

/-- An object that is found fits into the raw data of its section. -/
theorem fits_of_locate (h : image.locate rva size = .ok place) :
    place.Fits image size.toNat := by
  obtain ⟨hhost, hoffset, hfits⟩ := locate_eq_ok_iff.1 h
  exact ⟨hhost.getElem?, by rw [hoffset]; exact Nat.le_add_right .., hfits⟩

/-- An address that is found in a section has a byte of raw data. -/
theorem fits_of_locateIn (h : image.locateIn index rva = .ok place) : place.Fits image 1 := by
  obtain ⟨hhost, rfl, -, hoffset, hend⟩ := locateIn_eq_ok_iff.1 h
  exact ⟨hhost, by rw [hoffset]; exact Nat.le_add_right .., hend⟩

/-- An object is not found because no section has its address, or because it exceeds the raw
data. -/
theorem error_of_locate {fault : Fault} (h : image.locate rva size = .error fault) :
    fault = .notFound rva ∨ fault = .outOfBounds rva size := by
  rw [locate] at h
  split at h
  · cases h
    exact .inl rfl
  · split at h
    · cases h
      exact .inr rfl
    · cases h

/-- In an image that lies within a file, an object that fits its section lies within the file
too. -/
theorem LiesWithin.rawEnd_le {n : Nat} (h : image.LiesWithin b) (hfits : place.Fits image n) :
    place.host.rawEnd ≤ b.size :=
  h place.host (List.mem_of_getElem? hfits.host)

/-- A place in an image that lies in the file is a place in the file. -/
theorem LiesWithin.le_size {n : Nat} (h : image.LiesWithin b) (hfits : place.Fits image n) :
    place.offset + n ≤ b.size :=
  Nat.le_trans hfits.le_rawEnd (h.rawEnd_le hfits)

end Image

/-! ### Tables without an end -/

/-- All records for which a table has room are in the file, and none of them is null. -/
def Unterminated {α : Type} (read? : Nat → Option α) (isNull : α → Bool)
    (width offset cap : Nat) : Prop :=
  ∃ entries, Bytes.records? read? width offset cap = some entries ∧
    ∀ e ∈ entries, isNull e = false

/-- If all the room of a table is in the file, its end is not found only if there is none. -/
theorem unterminated_of_sentinelTable? {α : Type} {read? : Nat → Option α} {isNull : α → Bool}
    {width offset cap : Nat} (hread : (Bytes.records? read? width offset cap).isSome)
    (h : sentinelTable? read? isNull width offset cap = none) :
    Unterminated read? isNull width offset cap := by
  induction cap generalizing offset with
  | zero => exact ⟨[], rfl, fun e he => by cases he⟩
  | succ cap ih =>
    obtain ⟨entries, hentries⟩ := Option.isSome_iff_exists.1 hread
    simp only [Bytes.records?, Option.bind_eq_bind, Option.bind_eq_some_iff,
      Option.some.injEq] at hentries
    obtain ⟨first, hfirst, rest, hrest, -⟩ := hentries
    simp only [sentinelTable?, hfirst] at h
    split at h
    · cases h
    · next hnull =>
      obtain ⟨rest, hrest, hall⟩ := ih (by rw [hrest]; rfl) (Option.map_eq_none_iff.1 h)
      refine ⟨first :: rest, by simp [Bytes.records?, hfirst, hrest], fun e he => ?_⟩
      rcases List.mem_cons.1 he with rfl | he
      · exact Bool.eq_false_iff.2 hnull
      · exact hall e he

/-! ### Reads that follow a translation -/

namespace Image

open Fault

variable {b : Bytes} {image : Image} {rva size : UInt32} {index : Nat} {place : Location}

/-- Each reader fails only when an address is not translated, or because of what it has read, and
never because a byte that it asks for is not in the file. -/
structure ReadsWithin (image : Image) (b : Bytes) : Prop where
  /-- No text is reported to be outside its section. -/
  text : ∀ {rva reported maxLength reason},
    readAscii b image rva maxLength = .error (.invalidString reported reason) →
      reason ≠ .outsideSection
  /-- The hint is there, and the name after it is not reported to be outside its section. -/
  hintName : ∀ {rva fault}, readHintName b image rva = .error fault →
    image.locate rva 2 = .error fault ∨
      ∃ reason, fault = .invalidString (rva + 2) reason ∧ reason ≠ .outsideSection
  importDirectory : ∀ {fault}, importDirectory b image = .error fault →
    ∃ d, image.directory? 1 = some d ∧ (image.locate d.address d.size = .error fault ∨
      ∃ place, image.locate d.address d.size = .ok place ∧ fault = .endless .importDirectory ∧
        Unterminated (ImportRecord.read? b) ImportRecord.isNull ImportRecord.size place.offset
          (d.size.toNat / ImportRecord.size))
  delayDirectory : ∀ {fault}, delayDirectory b image = .error fault →
    ∃ d, image.directory? 13 = some d ∧ (image.locate d.address d.size = .error fault ∨
      ∃ place, image.locate d.address d.size = .ok place ∧ fault = .endless .delayDirectory ∧
        Unterminated (DelayRecord.read? b) DelayRecord.isNull DelayRecord.size place.offset
          (d.size.toNat / DelayRecord.size))
  lookupTable : ∀ {index rva fault}, LookupEntry.tableAt b image index rva = .error fault →
    image.locateIn index rva = .error fault ∨
      ∃ place, image.locateIn index rva = .ok place ∧ fault = .endless .importLookup ∧
        Unterminated (LookupEntry.read? b image) LookupEntry.isNull image.lookupWidth place.offset
          (min maxLookupEntries ((place.host.rawEnd - place.offset) / image.lookupWidth))
  exportRecord : ∀ {d fault}, readExportRecord b image d = .error fault →
    image.locate d.address (UInt32.ofNat ExportRecord.size) = .error fault ∨
      ∃ place record, image.locate d.address (UInt32.ofNat ExportRecord.size) = .ok place ∧
        ExportRecord.read? b place.offset = some record ∧ record.fault? = some fault
  /-- No export directory gives its tables a length at which their sizes would not fit 32 bits. -/
  exportCounts : ∀ {d record}, readExportRecord b image d = .ok record →
    record.addressCount.toNat ≤ maxExports ∧ record.nameCount.toNat ≤ maxExports
  words : ∀ {rva count fault}, count.toNat ≤ maxExports →
    readWords b image rva count = .error fault → image.locate rva (count * 4) = .error fault
  halfWords : ∀ {rva count fault}, count.toNat ≤ maxExports →
    readHalfWords b image rva count = .error fault → image.locate rva (count * 2) = .error fault

/-- A text that starts in the file is not outside its section, and its fault carries the address
that it is to be reported with. -/
theorem error_of_readAsciiAt {s : Section} {offset maxLength : Nat} {fault : Fault}
    (hle : offset ≤ b.size) (h : readAsciiAt b s offset rva maxLength = .error fault) :
    ∃ reason, fault = .invalidString rva reason ∧ reason ≠ .outsideSection := by
  simp only [readAsciiAt] at h
  split at h
  · omega
  · split at h
    · cases h
      exact ⟨_, rfl, StringFault.noConfusion⟩
    · split at h
      · cases h
        exact ⟨_, rfl, StringFault.noConfusion⟩
      · split at h
        · cases h
        · cases h
          exact ⟨_, rfl, StringFault.noConfusion⟩

/-- An export directory is read if it is where it should be, and its counts are accepted. -/
theorem readExportRecord_eq_ok_iff {d : DataDirectory} {record : ExportRecord} :
    readExportRecord b image d = .ok record ↔
      ∃ place, image.locate d.address (UInt32.ofNat ExportRecord.size) = .ok place ∧
        ExportRecord.read? b place.offset = some record ∧ record.fault? = none := by
  simp only [readExportRecord, bind_eq_ok_iff, expect_eq_ok_iff]
  refine exists_congr fun place => and_congr_right fun _ => ?_
  constructor
  · rintro ⟨r, hr, h⟩
    split at h
    · cases h
    · next hfault =>
      cases h
      exact ⟨hr, hfault⟩
  · rintro ⟨hr, hfault⟩
    exact ⟨record, hr, by rw [hfault]; rfl⟩

/-- An export directory that is accepted has no more slots and names than a table may have. -/
theorem counts_le_of_readExportRecord {d : DataDirectory} {record : ExportRecord}
    (h : readExportRecord b image d = .ok record) :
    record.addressCount.toNat ≤ maxExports ∧ record.nameCount.toNat ≤ maxExports := by
  obtain ⟨-, -, -, hfault⟩ := readExportRecord_eq_ok_iff.1 h
  rw [ExportRecord.fault?] at hfault
  split at hfault
  · cases hfault
  · next hcounts => exact not_or.1 hcounts |>.imp Nat.le_of_not_lt Nat.le_of_not_lt

namespace LiesWithin

/-- In an image that lies within its file, no string begins outside of the section that hosts it. -/
theorem text (hw : image.LiesWithin b) {reported : UInt32} {maxLength : Nat}
    {reason : StringFault}
    (h : readAscii b image rva maxLength = .error (.invalidString reported reason)) :
    reason ≠ .outsideSection := by
  rw [readAscii] at h
  split at h
  · cases h
    exact StringFault.noConfusion
  · split at h
    · next hplace =>
      cases h
      rcases error_of_locate hplace with heq | heq <;> cases heq
    · next place hplace =>
      have hle : place.offset + 1 ≤ b.size := hw.le_size (fits_of_locate hplace)
      obtain ⟨reason, heq, hreason⟩ := error_of_readAsciiAt (Nat.le_of_succ_le hle) h
      cases heq
      exact hreason

/-- In an image that lies within its file, a hint and name fail only where the hint cannot be
located or the name is no proper string. -/
theorem hintName (hw : image.LiesWithin b) {fault : Fault}
    (h : readHintName b image rva = .error fault) : image.locate rva 2 = .error fault ∨
      ∃ reason, fault = .invalidString (rva + 2) reason ∧ reason ≠ .outsideSection := by
  rw [readHintName, bind_eq_error_iff] at h
  refine h.imp_right fun ⟨place, hplace, h⟩ => ?_
  have hle : place.offset + 2 ≤ b.size := hw.le_size (fits_of_locate hplace)
  obtain ⟨hint, hhint⟩ := Option.isSome_iff_exists.1 (Bytes.fixedWidth_u16?.isSome hle)
  rw [bind_eq_error_iff, expect_eq_error_iff, hhint] at h
  rcases h with ⟨h, -⟩ | ⟨_, -, h⟩
  · cases h
  · rw [bind_eq_error_iff] at h
    rcases h with h | ⟨_, -, h⟩
    · exact error_of_readAsciiAt hle h
    · cases h

/-- In an image that lies within its file, a directory table fails only where the directory cannot
be located or has no end. -/
theorem directoryTable (hw : image.LiesWithin b) {α : Type} {read : Bytes → Nat → Option α}
    {isNull : α → Bool} {width slot : Nat} {kind : TableKind} {fault : Fault}
    (hread : Bytes.FixedWidth read width) (hwidth : 0 < width)
    (h : DllGraph.directoryTable image slot kind (read b) isNull width = .error fault) :
    ∃ d, image.directory? slot = some d ∧ (image.locate d.address d.size = .error fault ∨
      ∃ place, image.locate d.address d.size = .ok place ∧ fault = .endless kind ∧
        Unterminated (read b) isNull width place.offset (d.size.toNat / width)) := by
  rw [DllGraph.directoryTable] at h
  split at h
  · cases h
  · next d hd =>
    refine ⟨d, hd, ?_⟩
    split at h
    · next hplace =>
      cases h
      exact .inl hplace
    · next place hplace =>
      split at h
      · next hnone =>
        cases h
        have hle : place.offset + d.size.toNat ≤ b.size := hw.le_size (fits_of_locate hplace)
        have hroom : width * (d.size.toNat / width) ≤ d.size.toNat := Nat.mul_div_le ..
        have hall := (hread.records? hwidth (d.size.toNat / width)).isSome
          (Nat.le_trans (Nat.add_le_add_left hroom place.offset) hle)
        exact .inr ⟨place, hplace, rfl, unterminated_of_sentinelTable? hall hnone⟩
      · cases h

/-- In an image that lies within its file, a lookup table fails only where it is not in the given
section or has no end. -/
theorem lookupTable (hw : image.LiesWithin b) {fault : Fault}
    (h : LookupEntry.tableAt b image index rva = .error fault) :
    image.locateIn index rva = .error fault ∨
      ∃ place, image.locateIn index rva = .ok place ∧ fault = .endless .importLookup ∧
        Unterminated (LookupEntry.read? b image) LookupEntry.isNull image.lookupWidth place.offset
          (min maxLookupEntries ((place.host.rawEnd - place.offset) / image.lookupWidth)) := by
  rw [LookupEntry.tableAt] at h
  split at h
  · next hplace =>
    cases h
    exact .inl hplace
  · next place hplace =>
    obtain ⟨hnone, rfl⟩ := expect_eq_error_iff.1 h
    have hend : place.host.rawEnd ≤ b.size := hw.rawEnd_le (fits_of_locateIn hplace)
    have hstart : place.offset + 1 ≤ place.host.rawEnd := (fits_of_locateIn hplace).le_rawEnd
    have hroom : image.lookupWidth *
        min maxLookupEntries ((place.host.rawEnd - place.offset) / image.lookupWidth) ≤
          place.host.rawEnd - place.offset :=
      Nat.le_trans (Nat.mul_le_mul_left _ (Nat.min_le_right ..)) (Nat.mul_div_le ..)
    have hentries := (LookupEntry.fixedWidth_read? image).records? lookupWidth_pos
      (min maxLookupEntries ((place.host.rawEnd - place.offset) / image.lookupWidth))
    have hall := hentries.isSome (Nat.le_trans (Nat.add_le_add_left hroom place.offset)
      (by omega : place.offset + (place.host.rawEnd - place.offset) ≤ b.size))
    exact .inr ⟨place, hplace, rfl, unterminated_of_sentinelTable? hall hnone⟩

/-- In an image that lies within its file, an export directory fails only where it cannot be located
or its counts are wrong. -/
theorem exportRecord (hw : image.LiesWithin b) {d : DataDirectory} {fault : Fault}
    (h : readExportRecord b image d = .error fault) :
    image.locate d.address (UInt32.ofNat ExportRecord.size) = .error fault ∨
      ∃ place record, image.locate d.address (UInt32.ofNat ExportRecord.size) = .ok place ∧
        ExportRecord.read? b place.offset = some record ∧ record.fault? = some fault := by
  rw [readExportRecord, bind_eq_error_iff] at h
  refine h.imp_right fun ⟨place, hplace, h⟩ => ?_
  have hle : place.offset + 40 ≤ b.size := hw.le_size (fits_of_locate hplace)
  obtain ⟨record, hrecord⟩ := Option.isSome_iff_exists.1 (ExportRecord.fixedWidth_read?.isSome hle)
  rw [bind_eq_error_iff, expect_eq_error_iff, hrecord] at h
  rcases h with ⟨h, -⟩ | ⟨_, heq, h⟩
  · cases h
  · cases expect_eq_ok_iff.1 heq
    split at h
    · next hfault =>
      cases h
      exact ⟨place, record, hplace, hrecord, hfault⟩
    · cases h

/-- A row of records that has been located is read, as long as its size fits 32 bits. -/
theorem error_of_row (hw : image.LiesWithin b) {α : Type} {read : Bytes → Nat → Option α}
    {width count : UInt32} {short fault : Fault} (hread : Bytes.FixedWidth read width.toNat)
    (hwidth : 0 < width.toNat) (hsize : count.toNat * width.toNat < UInt32.size)
    (h : (match image.locate rva (count * width) with
      | .error fault => .error fault
      | .ok place =>
        expect short (Bytes.records? (read b) width.toNat place.offset count.toNat) :
          Except Fault (List α)) = .error fault) :
    image.locate rva (count * width) = .error fault := by
  split at h
  · next hplace =>
    cases h
    exact hplace
  · next place hplace =>
    have hle := hw.le_size (fits_of_locate hplace)
    rw [UInt32.toNat_mul, Nat.mod_eq_of_lt hsize, Nat.mul_comm] at hle
    have hall := (hread.records? hwidth count.toNat).isSome hle
    rw [(expect_eq_error_iff.1 h).1] at hall
    cases hall

/-- In an image that lies within its file, a table of words fails only where it cannot be
located. -/
theorem words (hw : image.LiesWithin b) {count : UInt32} {fault : Fault}
    (hcount : count.toNat ≤ maxExports) (h : readWords b image rva count = .error fault) :
    image.locate rva (count * 4) = .error fault := by
  rw [readWords] at h
  split at h
  · cases h
  · exact hw.error_of_row Bytes.fixedWidth_u32? (by decide)
      (Nat.lt_of_le_of_lt (Nat.mul_le_mul_right 4 hcount) (by decide)) h

/-- In an image that lies within its file, a table of half words fails only where it cannot be
located. -/
theorem halfWords (hw : image.LiesWithin b) {count : UInt32} {fault : Fault}
    (hcount : count.toNat ≤ maxExports) (h : readHalfWords b image rva count = .error fault) :
    image.locate rva (count * 2) = .error fault := by
  rw [readHalfWords] at h
  split at h
  · cases h
  · exact hw.error_of_row Bytes.fixedWidth_u16? (by decide)
      (Nat.lt_of_le_of_lt (Nat.mul_le_mul_right 2 hcount) (by decide)) h

/-- On an image whose sections lie in the file, no read that follows a translation fails. -/
theorem readsWithin (hw : image.LiesWithin b) : image.ReadsWithin b where
  text := hw.text
  hintName := hw.hintName
  importDirectory := hw.directoryTable ImportRecord.fixedWidth_read? (by decide)
  delayDirectory := hw.directoryTable DelayRecord.fixedWidth_read? (by decide)
  lookupTable := hw.lookupTable
  exportRecord := hw.exportRecord
  exportCounts := counts_le_of_readExportRecord
  words := hw.words
  halfWords := hw.halfWords

end LiesWithin

/-- On an accepted image, the raw data of all sections lies in the file, a translated address leads
to a place in the raw data of its section, and no read that follows a translation fails. -/
theorem readsWithin_of_parse (h : parse b = .ok image) :
    (∀ s ∈ image.sections, s.rawPointer.toNat + s.rawSize.toNat ≤ b.size) ∧
    (∀ rva size place, image.locate rva size = .ok place →
      place.Fits image size.toNat ∧ place.host.rawEnd ≤ b.size) ∧
    (∀ index rva place, image.locateIn index rva = .ok place →
      place.index = index ∧ place.Fits image 1 ∧ place.host.rawEnd ≤ b.size) ∧
    image.ReadsWithin b := by
  have hw : image.LiesWithin b := liesWithin_of_parse h
  refine ⟨hw, fun rva size place hplace => ?_, fun index rva place hplace => ?_, hw.readsWithin⟩
  · have hfits := fits_of_locate hplace
    exact ⟨hfits, hw.rawEnd_le hfits⟩
  · have hfits := fits_of_locateIn hplace
    exact ⟨(locateIn_eq_ok_iff.1 hplace).2.1, hfits, hw.rawEnd_le hfits⟩

/-- A file whose only section declares as much raw data as a section can, and has four bytes. -/
def overlongFile : Bytes :=
  fileOf false [⟨0, 0⟩, ⟨4096, 40⟩] 0xFFFFFFFF [1, 0, 0x66, 0]

/-- The image of that file. -/
def overlongImage : Image :=
  imageOf false [⟨0, 0⟩, ⟨4096, 40⟩] 4 4

/-- In the overlong file, a hint at the very end is found and read, and the name after it has no
room: it is reported as unterminated and not as outside its section. -/
theorem readsWithin_overlong :
    parse overlongFile = .ok overlongImage ∧
      (∃ place, overlongImage.locate 4098 2 = .ok place ∧ place.Fits overlongImage 2 ∧
        place.host.rawEnd ≤ overlongFile.size) ∧
      ∃ reason, readHintName overlongFile overlongImage 4098 =
        .error (.invalidString 4100 reason) ∧ reason ≠ .outsideSection := by
  have h : parse overlongFile = .ok overlongImage := Fault.eq_ok_of_toOption (by decide +kernel)
  obtain ⟨-, hlocate, -, hreads⟩ := readsWithin_of_parse h
  have hplace : overlongImage.locate 4098 2 = .ok ⟨242, 0, ⟨"", 4096, 4, 240, 4, 0⟩⟩ :=
    Fault.eq_ok_of_toOption (by decide +kernel)
  refine ⟨h, ⟨_, hplace, hlocate _ _ _ hplace⟩, ?_⟩
  cases hname : readHintName overlongFile overlongImage 4098 with
  | ok found =>
    have hnone : (readHintName overlongFile overlongImage 4098).toOption = none := by
      decide +kernel
    rw [hname] at hnone
    cases hnone
  | error fault =>
    rcases hreads.hintName hname with herror | ⟨reason, rfl, hreason⟩
    · rw [hplace] at herror
      cases herror
    · exact ⟨reason, rfl, hreason⟩

end Image

end DllGraph
