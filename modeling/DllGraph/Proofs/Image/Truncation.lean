import DllGraph.Proofs.Exports
import DllGraph.Proofs.Image.Address
import DllGraph.Proofs.Image.Layout
import DllGraph.Proofs.Image.Text
import Mathlib.Data.List.Forall2

/-!
# Truncated Files

A file that has lost its end, and whose headers are still accepted, has the same image as before but
for its sections, which are cut at the new end. Nothing that is read from it is made up: whatever a
reader still finds in the truncated file it finds in the whole file too (`Survives`).

Two things are needed for this. No limit of a reader is larger in the truncated file than in the
whole one, and the section that decides about an address is the same in both. The second holds if
the sections of the whole file do not overlap; otherwise an address that a section has lost might
turn up in a later section.

## Main definitions

* `Bytes.Begins`, the files that another one begins with;
* `Image.cutAt`, an image whose sections are cut at the end of a shorter file;
* `Survives`, a result that has not been changed by the loss of data, except into a fault;
* `ImportedDll.RemainsOf` and `ExportTable.RemainsOf`, what may be left of a DLL and of a table.

## Main results

* `Image.exists_cutAt_of_parse` — what the image of a truncated file is;
* `Image.survives_locate`, `survives_readAsciiAt` and so on — each reader survives;
* `remainsOf_of_begins` — what may be left of the imports and the exports of a truncated file.
-/

namespace DllGraph

/-! ### Beginnings of files -/

namespace Bytes

/-- A file begins with another one. -/
def Begins (front whole : Bytes) : Prop :=
  ∃ rest, whole = front ++ rest

variable {front whole : Bytes} {offset : Nat}

/-- The first bytes of a file begin it. -/
theorem begins_take (whole : Bytes) (size : Nat) :
    Begins ⟨(whole.data.toList.take size).toArray⟩ whole := by
  refine ⟨⟨(whole.data.toList.drop size).toArray⟩, ByteArray.ext ?_⟩
  simp only [ByteArray.data_append, List.append_toArray, List.take_append_drop,
    Array.toArray_toList]

/-- What begins a file is not longer than the file. -/
theorem Begins.size_le (h : front.Begins whole) : front.size ≤ whole.size := by
  obtain ⟨rest, rfl⟩ := h
  rw [ByteArray.size_append]
  exact Nat.le_add_right ..

/-- What begins a file has the same bytes as the file. -/
theorem Begins.getElem? (h : front.Begins whole) {i : Nat} (hi : i < front.size) :
    whole[i]? = front[i]? := by
  have hi' : i < whole.size := Nat.lt_of_lt_of_le hi h.size_le
  obtain ⟨rest, rfl⟩ := h
  rw [getElem?_pos _ i hi', getElem?_pos front i hi, ByteArray.getElem_append_left hi]

/-- What can be read from the beginning is what can be read from the whole file. -/
theorem FixedWidth.eq_some_of_begins {α : Type} {read : Bytes → Nat → Option α} {width : Nat}
    (hread : FixedWidth read width) (h : front.Begins whole) {a : α}
    (ha : read front offset = some a) : read whole offset = some a := by
  rw [← ha]
  refine hread.congr fun i hi => h.getElem? ?_
  have hsome : (read front offset).isSome := by rw [ha]; rfl
  have hle := (hread.isSome_iff front offset).1 hsome
  omega

/-- What is stored in the beginning of a file is stored in the file. -/
theorem Stores.of_begins {bytes : List UInt8} (hstores : front.Stores offset bytes)
    (h : front.Begins whole) : whole.Stores offset bytes := by
  intro i hi
  rw [← hstores i hi]
  refine h.getElem? ?_
  have hle := hstores.le_size (List.ne_nil_of_length_pos (Nat.zero_lt_of_lt hi))
  omega

end Bytes

/-! ### The image of a truncated file -/

namespace Section

/-- A section whose raw data is cut at the end of a file. -/
def cutAt (fileSize : Nat) (s : Section) : Section :=
  { s with
    rawPointer := UInt32.ofNat (min s.rawPointer.toNat fileSize)
    rawSize := UInt32.ofNat (min s.rawSize.toNat (fileSize - s.rawPointer.toNat)) }

variable {fileSize : Nat} {s : Section} {rva : UInt32}

/-- In a cut file the raw data of a section begins where it did, or at the end. -/
@[simp] theorem toNat_rawPointer_cutAt :
    (s.cutAt fileSize).rawPointer.toNat = min s.rawPointer.toNat fileSize :=
  UInt32.toNat_ofNat_of_lt' (Nat.lt_of_le_of_lt (Nat.min_le_left ..) s.rawPointer.toNat_lt_size)

/-- In a cut file a section has the raw data that is left. -/
@[simp] theorem toNat_rawSize_cutAt :
    (s.cutAt fileSize).rawSize.toNat = min s.rawSize.toNat (fileSize - s.rawPointer.toNat) :=
  UInt32.toNat_ofNat_of_lt' (Nat.lt_of_le_of_lt (Nat.min_le_left ..) s.rawSize.toNat_lt_size)

/-- A section that has been cut at the end of a file can be cut at an earlier end. -/
theorem cutAt_ofRecord {size : Nat} (h : fileSize ≤ size) (r : SectionRecord) :
    (ofRecord size r).cutAt fileSize = ofRecord fileSize r := by
  rw [cutAt, toNat_rawPointer_ofRecord, toNat_rawSize_ofRecord]
  simp only [ofRecord, Section.mk.injEq, true_and, and_true]
  exact ⟨congrArg _ (by omega), congrArg _ (by omega)⟩

/-- Cutting a file does not move the end of raw data back. -/
theorem rawEnd_cutAt_le : (s.cutAt fileSize).rawEnd ≤ s.rawEnd := by
  rw [rawEnd, rawEnd, toNat_rawPointer_cutAt, toNat_rawSize_cutAt]
  omega

/-- An address with raw data in the cut file has it in the whole one. -/
theorem covers_of_covers_cutAt (h : (s.cutAt fileSize).covers rva = true) :
    s.covers rva = true := by
  simp only [covers, Bool.and_eq_true, decide_eq_true_eq, toNat_rawSize_cutAt] at h ⊢
  exact ⟨h.1, Nat.lt_of_lt_of_le h.2 (Nat.add_le_add_left (Nat.min_le_left ..) _)⟩

/-- A place that a section has kept is where it was. -/
theorem offsetOf_cutAt (h : (s.cutAt fileSize).offsetOf rva < (s.cutAt fileSize).rawEnd) :
    (s.cutAt fileSize).offsetOf rva = s.offsetOf rva := by
  simp only [offsetOf, rawEnd, toNat_rawPointer_cutAt, toNat_rawSize_cutAt] at h ⊢
  have haddress : (s.cutAt fileSize).address = s.address := rfl
  rw [haddress] at h ⊢
  omega

end Section

namespace Image

/-- An image whose sections are cut at the end of a file. -/
def cutAt (fileSize : Nat) (image : Image) : Image :=
  { image with sections := image.sections.map (Section.cutAt fileSize) }

end Image

/-- Headers stay where they are. -/
theorem Headers.In.of_begins {h : Headers} {front whole : Bytes} (hin : h.In front)
    (hb : front.Begins whole) : h.In whole := by
  have hle := hin.tableEnd_le
  exact hin.of_agreeBelow fun i hi => (hb.getElem? (by omega)).symm

/-- Headers describe the same image in a shorter file, but for the raw data that it lacks. -/
theorem Headers.cutAt_toImage (h : Headers) {fileSize size : Nat} (hle : fileSize ≤ size) :
    (h.toImage size).cutAt fileSize = h.toImage fileSize := by
  have hsections : (h.table.map (Section.ofRecord size)).map (Section.cutAt fileSize) =
      h.table.map (Section.ofRecord fileSize) := by
    rw [List.map_map]
    exact List.map_congr_left fun r _ => Section.cutAt_ofRecord hle r
  simp only [Image.cutAt, toImage, hsections]

/-- The image of a truncated file is that of the whole file, cut at the end of the file. -/
theorem Image.exists_cutAt_of_parse {front whole : Bytes} (hb : front.Begins whole) {cut : Image}
    (h : parse front = .ok cut) :
    ∃ image, parse whole = .ok image ∧ image.cutAt front.size = cut := by
  obtain ⟨headers, hin, rfl⟩ := parse_eq_ok_iff.1 h
  exact ⟨headers.toImage whole.size, parse_eq_ok_iff.2 ⟨headers, hin.of_begins hb, rfl⟩,
    headers.cutAt_toImage hb.size_le⟩

/-! ### Results that survive -/

/-- What the first result holds, the second holds too. -/
def Survives {α : Type} (cut whole : Except Fault α) : Prop :=
  ∀ a, cut = .ok a → whole = .ok a

namespace Survives

variable {α β : Type} {cut whole : Except Fault α}

theorem refl (x : Except Fault α) : Survives x x :=
  fun _ h => h

/-- What survives a cut step by step survives it. -/
theorem bind {next next' : α → Except Fault β} (h : Survives cut whole)
    (hnext : ∀ a, Survives (next a) (next' a)) :
    Survives (cut >>= next) (whole >>= next') := by
  intro y hy
  obtain ⟨a, ha, hy⟩ := Fault.bind_eq_ok_iff.1 hy
  exact Fault.bind_eq_ok_iff.2 ⟨a, h a ha, hnext a y hy⟩

/-- What is expected survives if it is there in the whole file when it is there in the cut one. -/
theorem expect {x x' : Option α} {fault fault' : Fault} (h : ∀ a, x = some a → x' = some a) :
    Survives (Fault.expect fault x) (Fault.expect fault' x') := by
  intro a ha
  exact Fault.expect_eq_ok_iff.2 (h a (Fault.expect_eq_ok_iff.1 ha))

end Survives

/-! ### Addresses of a truncated file -/

namespace Image

variable {image : Image} {fileSize index : Nat} {rva size : UInt32} {place : Location}

/-- No two sections have raw data for the same address. -/
def SectionsDisjoint (image : Image) : Prop :=
  image.sections.Pairwise fun s t => ∀ rva, ¬(s.covers rva = true ∧ t.covers rva = true)

/-- If sections do not overlap, any section that covers an address decides about it. -/
theorem SectionsDisjoint.hosts (hd : image.SectionsDisjoint) {s : Section}
    (hs : image.sections[index]? = some s) (hcovers : s.covers rva = true) :
    image.Hosts rva index s := by
  refine ⟨hs, hcovers, fun i hi other hother => ?_⟩
  obtain ⟨hlt, rfl⟩ := List.getElem?_eq_some_iff.1 hs
  obtain ⟨hlt', rfl⟩ := List.getElem?_eq_some_iff.1 hother
  have hdisjoint := List.pairwise_iff_getElem.1 hd i index hlt' hlt hi
  exact Bool.eq_false_iff.2 fun hother => hdisjoint rva ⟨hother, hcovers⟩

/-- The sections of an image that has been cut. -/
theorem exists_getElem?_of_cutAt {t : Section}
    (h : (image.cutAt fileSize).sections[index]? = some t) :
    ∃ s, image.sections[index]? = some s ∧ s.cutAt fileSize = t := by
  simpa [cutAt] using h

/-- An object that is found after the cut was found before it, at the same place. -/
theorem exists_locate_of_cutAt (hd : image.SectionsDisjoint)
    (h : (image.cutAt fileSize).locate rva size = .ok place) :
    ∃ s, s.cutAt fileSize = place.host ∧
      image.locate rva size = .ok ⟨place.offset, place.index, s⟩ := by
  obtain ⟨hhost, hoffset, hend⟩ := locate_eq_ok_iff.1 h
  obtain ⟨s, hs, heq⟩ := exists_getElem?_of_cutAt hhost.getElem?
  have hcovers := hhost.covers
  rw [← heq] at hcovers hoffset hend
  refine ⟨s, heq, locate_eq_ok_iff.2 ⟨?_, ?_, ?_⟩⟩
  · exact hd.hosts hs (Section.covers_of_covers_cutAt hcovers)
  · exact hoffset.trans (Section.offsetOf_cutAt (Section.offsetOf_lt_rawEnd hcovers))
  · exact Nat.le_trans hend Section.rawEnd_cutAt_le

/-- So was an address that is found in a given section. -/
theorem exists_locateIn_of_cutAt (h : (image.cutAt fileSize).locateIn index rva = .ok place) :
    ∃ s, s.cutAt fileSize = place.host ∧
      image.locateIn index rva = .ok ⟨place.offset, place.index, s⟩ := by
  obtain ⟨hhost, hindex, hspans, hoffset, hend⟩ := locateIn_eq_ok_iff.1 h
  obtain ⟨s, hs, heq⟩ := exists_getElem?_of_cutAt hhost
  rw [← heq] at hspans hoffset hend
  refine ⟨s, heq, locateIn_eq_ok_iff.2 ⟨hs, hindex, hspans, ?_, ?_⟩⟩
  · rw [hoffset] at hend
    exact hoffset.trans (Section.offsetOf_cutAt hend)
  · exact Nat.lt_of_lt_of_le hend Section.rawEnd_cutAt_le

end Image

/-! ### Readers of a truncated file -/

/-- A table whose end is found in less room is the same in more room. -/
theorem sentinelTable?_mono {α : Type} {read? read?' : Nat → Option α} {isNull : α → Bool}
    {width offset cap cap' : Nat} {entries : List α}
    (hread : ∀ offset a, read? offset = some a → read?' offset = some a) (hcap : cap ≤ cap')
    (h : sentinelTable? read? isNull width offset cap = some entries) :
    sentinelTable? read?' isNull width offset cap' = some entries := by
  induction cap generalizing offset cap' entries with
  | zero => cases h
  | succ cap ih =>
    obtain ⟨cap', rfl⟩ := Nat.exists_eq_add_of_le' (Nat.le_trans (Nat.le_add_left 1 cap) hcap)
    simp only [sentinelTable?] at h ⊢
    split at h
    · cases h
    · next first hfirst =>
      rw [hread offset first hfirst]
      dsimp only
      split at h
      · next hnull => rw [if_pos hnull, h]
      · next hnull =>
        obtain ⟨rest, hrest, rfl⟩ := Option.map_eq_some_iff.1 h
        rw [if_neg hnull, ih (Nat.le_of_succ_le_succ hcap) hrest, Option.map_some]

/-- A file whose sections do not overlap has lost its end. The image of what is left of it is
`image.cutAt front.size`. -/
structure Truncates (front whole : Bytes) (image : Image) : Prop where
  begins : front.Begins whole
  disjoint : image.SectionsDisjoint

namespace Truncates

variable {front whole : Bytes} {image : Image} {rva : UInt32} {index maxLength : Nat}

/-- A string that is read at an offset of the cut file is read there in the whole one. -/
theorem survives_readAsciiAt (h : Truncates front whole image) {s : Section} {offset : Nat} :
    Survives (readAsciiAt front (s.cutAt front.size) offset rva maxLength)
      (readAsciiAt whole s offset rva maxLength) := by
  intro text htext
  obtain ⟨hprintable, hne, hstores, hmax, hend⟩ := readAsciiAt_eq_ok_iff.1 htext
  exact readAsciiAt_eq_ok_iff.2 ⟨hprintable, hne, hstores.of_begins h.begins, hmax,
    Nat.lt_of_lt_of_le hend Section.rawEnd_cutAt_le⟩

/-- A string that is read from the cut file is read from the whole one. -/
theorem survives_readAscii (h : Truncates front whole image) :
    Survives (readAscii front (image.cutAt front.size) rva maxLength)
      (readAscii whole image rva maxLength) := by
  intro text htext
  obtain ⟨hrva, place, hplace, htext⟩ := readAscii_eq_ok_iff.1 htext
  obtain ⟨s, heq, hplace⟩ := Image.exists_locate_of_cutAt h.disjoint hplace
  rw [← heq] at htext
  exact readAscii_eq_ok_iff.2 ⟨hrva, _, hplace, h.survives_readAsciiAt text htext⟩

/-- A hint and name that are read from the cut file are read from the whole one. -/
theorem survives_readHintName (h : Truncates front whole image) :
    Survives (readHintName front (image.cutAt front.size) rva) (readHintName whole image rva) := by
  intro pair hpair
  simp only [readHintName, Fault.bind_eq_ok_iff, Fault.expect_eq_ok_iff] at hpair ⊢
  obtain ⟨place, hplace, hint, hhint, name, hname, hpair⟩ := hpair
  obtain ⟨s, heq, hplace⟩ := Image.exists_locate_of_cutAt h.disjoint hplace
  rw [← heq] at hname
  exact ⟨_, hplace, hint, Bytes.fixedWidth_u16?.eq_some_of_begins h.begins hhint, name,
    h.survives_readAsciiAt name hname, hpair⟩

/-- An entry that is decoded in the cut file is decoded alike in the whole one. -/
theorem survives_decodeFrom (h : Truncates front whole image) (e : LookupEntry) (base : UInt64) :
    Survives (e.decodeFrom front (image.cutAt front.size) base)
      (e.decodeFrom whole image base) := by
  rw [LookupEntry.decodeFrom, LookupEntry.decodeFrom]
  split
  · exact .refl _
  · have hname : ∀ address : UInt64, Survives
        (toRva address base >>= fun rva =>
          readHintName front (image.cutAt front.size) rva >>= fun found =>
            pure (ImportedSymbol.byName found.1 found.2))
        (toRva address base >>= fun rva =>
          readHintName whole image rva >>= fun found =>
            pure (ImportedSymbol.byName found.1 found.2)) :=
      fun address => (Survives.refl _).bind fun rva =>
        h.survives_readHintName.bind fun found => .refl _
    dsimp only
    split
    · exact (Survives.refl _).bind hname
    · exact (Survives.refl _).bind hname

/-- A lookup table whose end is in the cut file is the same in the whole one. -/
theorem survives_tableAt (h : Truncates front whole image) :
    Survives (LookupEntry.tableAt front (image.cutAt front.size) index rva)
      (LookupEntry.tableAt whole image index rva) := by
  intro entries hentries
  rw [LookupEntry.tableAt] at hentries ⊢
  split at hentries
  · cases hentries
  · next place hplace =>
    obtain ⟨s, heq, hplace⟩ := Image.exists_locateIn_of_cutAt hplace
    rw [hplace]
    dsimp only at hentries ⊢
    refine Survives.expect (fun found hfound => sentinelTable?_mono ?_ ?_ hfound) entries hentries
    · intro offset e he
      exact (LookupEntry.fixedWidth_read? image).eq_some_of_begins h.begins he
    · -- The section has lost raw data, so there is no more room than before.
      have hend : place.host.rawEnd ≤ s.rawEnd := heq ▸ Section.rawEnd_cutAt_le
      have hroom : (place.host.rawEnd - place.offset) / image.lookupWidth ≤
          (s.rawEnd - place.offset) / image.lookupWidth :=
        Nat.div_le_div_right (Nat.sub_le_sub_right hend _)
      exact Nat.le_min.2 ⟨Nat.min_le_left .., Nat.le_trans (Nat.min_le_right ..) hroom⟩

/-- The name in an import record survives. -/
theorem survives_importName (h : Truncates front whole image) (r : ImportRecord) :
    Survives (r.dllName front (image.cutAt front.size)) (r.dllName whole image) :=
  h.survives_readAscii

/-- The entries of an import record survive. -/
theorem survives_importEntries (h : Truncates front whole image) (r : ImportRecord) :
    Survives (r.entries front (image.cutAt front.size) index) (r.entries whole image index) := by
  rw [ImportRecord.entries, ImportRecord.entries]
  generalize (if r.lookupTable ≠ 0 then r.lookupTable else r.addressTable) = table
  by_cases hzero : table = 0
  · simp only [hzero, if_true]
    exact .refl _
  · simp only [if_neg hzero]
    exact h.survives_tableAt

/-- The name in a delay-load record survives. -/
theorem survives_delayName (h : Truncates front whole image) (r : DelayRecord) :
    Survives (r.dllName front (image.cutAt front.size)) (r.dllName whole image) :=
  (Survives.refl _).bind fun _ => h.survives_readAscii

/-- The entries of a delay-load record survive. -/
theorem survives_delayEntries (h : Truncates front whole image) (r : DelayRecord) :
    Survives (r.entries front (image.cutAt front.size) index) (r.entries whole image index) := by
  rw [DelayRecord.entries, DelayRecord.entries]
  split
  · exact (Survives.refl _).bind fun _ => (Survives.refl _).bind fun _ => h.survives_tableAt
  · exact (Survives.refl _).bind fun _ => h.survives_tableAt

/-- A directory table that is found in the cut file is the same in the whole one. -/
theorem survives_directoryTable (h : Truncates front whole image) {α : Type}
    {read : Bytes → Nat → Option α} {isNull : α → Bool} {width slot : Nat} {kind : TableKind}
    (hread : Bytes.FixedWidth read width) :
    Survives (directoryTable (image.cutAt front.size) slot kind (read front) isNull width)
      (directoryTable image slot kind (read whole) isNull width) := by
  intro table htable
  rw [directoryTable] at htable ⊢
  have hdirectory : (image.cutAt front.size).directory? slot = image.directory? slot := rfl
  rw [hdirectory] at htable
  split at htable
  · exact htable
  · split at htable
    · cases htable
    · next place hplace =>
      obtain ⟨s, -, hplace⟩ := Image.exists_locate_of_cutAt h.disjoint hplace
      rw [hplace]
      dsimp only
      split at htable
      · cases htable
      · next hentries =>
        rw [sentinelTable?_mono (fun _ _ => hread.eq_some_of_begins h.begins) (Nat.le_refl _)
          hentries]
        exact htable

end Truncates

/-! ### Imports of a truncated file -/

/-- What may be left of a symbol: itself, or a fault. -/
def ImportedSymbol.RemainsOf (cut symbol : ImportedSymbol) : Prop :=
  (∃ fault, cut = .invalid fault) ∨ cut = symbol

/-- What may be left of a DLL: its name, and either none of its symbols or all of them. -/
structure ImportedDll.RemainsOf (cut dll : ImportedDll) : Prop where
  name : cut.name = dll.name
  delayLoad : cut.delayLoad = dll.delayLoad
  symbols : cut.symbols = [] ∨ List.Forall₂ ImportedSymbol.RemainsOf cut.symbols dll.symbols

/-- What may be left of several DLLs: some of them, in the same order. -/
def DllsRemain (cut dlls : List ImportedDll) : Prop :=
  ∃ kept, kept.Sublist dlls ∧ List.Forall₂ ImportedDll.RemainsOf cut kept

/-- What may be left of two lists, one after the other, may be left of both. -/
theorem DllsRemain.append {cut cut' dlls dlls' : List ImportedDll} (h : DllsRemain cut dlls)
    (h' : DllsRemain cut' dlls') : DllsRemain (cut ++ cut') (dlls ++ dlls') := by
  obtain ⟨kept, hsub, hall⟩ := h
  obtain ⟨kept', hsub', hall'⟩ := h'
  exact ⟨kept ++ kept', hsub.append hsub', List.rel_append hall hall'⟩

/-- A symbol whose reading survives is the same, or is invalid in the cut file. -/
theorem ImportedSymbol.remainsOf_ofResult {cut whole : Except Fault ImportedSymbol}
    (h : Survives cut whole) : (ofResult cut).RemainsOf (ofResult whole) := by
  cases cut with
  | error fault => exact .inl ⟨fault, rfl⟩
  | ok symbol => exact .inr (by rw [h symbol rfl])

namespace Truncates

variable {front whole : Bytes} {image : Image}

/-- If the name of a DLL is still there, so is the DLL. -/
theorem exists_readDll (h : Truncates front whole image) {delayLoad : Bool} {base : UInt64}
    {name name' : Except Fault String} {table table' : Except Fault (List LookupEntry)}
    (hname : Survives name name') (htable : Survives table table') {cut : ImportedDll}
    (hcut : (readDll front (image.cutAt front.size) delayLoad base name table).value = some cut) :
    ∃ dll, (readDll whole image delayLoad base name' table').value = some dll ∧
      cut.RemainsOf dll := by
  cases name with
  | error fault => cases hcut
  | ok text =>
    cases hcut
    rw [hname text rfl]
    refine ⟨_, rfl, rfl, rfl, ?_⟩
    cases table with
    | error fault => exact .inl rfl
    | ok entries =>
      rw [htable entries rfl]
      refine .inr ?_
      simp only [readSymbols, List.map_map, List.forall₂_map_left_iff,
        List.forall₂_map_right_iff, List.forall₂_same, Function.comp_apply]
      exact fun e _ => ImportedSymbol.remainsOf_ofResult (h.survives_decodeFrom e base)

/-- If each DLL that is kept remains of one, then those that are kept remain of all. -/
theorem dllsRemain_filterMap {α : Type} {f f' : α → Option ImportedDll}
    (hf : ∀ a cut, f a = some cut → ∃ dll, f' a = some dll ∧ cut.RemainsOf dll) (l : List α) :
    DllsRemain (l.filterMap f) (l.filterMap f') := by
  induction l with
  | nil => exact ⟨[], List.Sublist.refl _, .nil⟩
  | cons a l ih =>
    obtain ⟨kept, hsub, hall⟩ := ih
    cases ha : f a with
    | none =>
      rw [List.filterMap_cons_none ha]
      refine ⟨kept, hsub.trans ?_, hall⟩
      rw [List.filterMap_cons]
      split
      · exact List.Sublist.refl _
      · exact List.sublist_cons_self ..
    | some cut =>
      obtain ⟨dll, hdll, hremains⟩ := hf a cut ha
      rw [List.filterMap_cons_some ha, List.filterMap_cons_some hdll]
      exact ⟨dll :: kept, hsub.cons_cons dll, .cons hremains hall⟩

/-- The DLLs that are read from the cut file remain of those of the whole one, if each of them
does. -/
theorem dllsRemain_readDlls {α : Type} {read read' : α → Nat → Salvaged (Option ImportedDll)}
    {table table' : Except Fault (Option (DirectoryTable α))} (htable : Survives table table')
    (hread : ∀ record index cut, (read record index).value = some cut →
      ∃ dll, (read' record index).value = some dll ∧ cut.RemainsOf dll) :
    DllsRemain (readDlls read table).value (readDlls read' table').value := by
  match table, htable with
  | .error fault, _ => exact ⟨[], List.nil_sublist _, .nil⟩
  | .ok none, _ => exact ⟨[], List.nil_sublist _, .nil⟩
  | .ok (some found), htable =>
    rw [htable _ rfl]
    simp only [readDlls, List.filterMap_map]
    exact dllsRemain_filterMap (fun record cut => hread record found.index cut) found.entries

/-- The imported DLLs that are read from the cut file remain of those of the whole one. -/
theorem dllsRemain_readImports (h : Truncates front whole image) :
    DllsRemain (readImports front (image.cutAt front.size)).value.dlls
      (readImports whole image).value.dlls := by
  refine DllsRemain.append (dllsRemain_readDlls ?_ ?_) (dllsRemain_readDlls ?_ ?_)
  · exact h.survives_directoryTable ImportRecord.fixedWidth_read?
  · exact fun r _ _ => h.exists_readDll (h.survives_importName r) (h.survives_importEntries r)
  · exact h.survives_directoryTable DelayRecord.fixedWidth_read?
  · exact fun r _ _ => h.exists_readDll (h.survives_delayName r) (h.survives_delayEntries r)

end Truncates

/-! ### Exports of a truncated file -/

/-- What may be left of a slot: itself, or a forwarder without its text. -/
def ExportTarget.RemainsOf (cut target : ExportTarget) : Prop :=
  cut = target ∨ ∃ text, target = .forwarder text ∧ cut = .forwarder ""

/-- What may be left of an export table: all slots, some names in the same order, and perhaps the
name of the DLL. -/
structure ExportTable.RemainsOf (cut table : ExportTable) : Prop where
  ordinalBase : cut.ordinalBase = table.ordinalBase
  addresses : List.Forall₂ ExportTarget.RemainsOf cut.addresses.toList table.addresses.toList
  dllName : cut.dllName = none ∨ cut.dllName = table.dllName
  names : cut.names.toList.Sublist table.names.toList

/-- A list of which less can be read is a sublist. -/
theorem sublist_filterMap {α β : Type} {f f' : α → Option β}
    (hf : ∀ a x, f a = some x → f' a = some x) (l : List α) :
    (l.filterMap f).Sublist (l.filterMap f') := by
  induction l with
  | nil => exact List.Sublist.refl _
  | cons a l ih =>
    cases ha : f a with
    | none =>
      rw [List.filterMap_cons_none ha, List.filterMap_cons]
      split
      · exact ih
      · exact ih.cons _
    | some x =>
      rw [List.filterMap_cons_some ha, List.filterMap_cons_some (hf a x ha)]
      exact ih.cons_cons x

namespace Truncates

variable {front whole : Bytes} {image : Image}

/-- A row of records that is found and read in the truncated file is the same in the whole file. -/
theorem survives_row (h : Truncates front whole image) {α : Type}
    {read : Bytes → Nat → Option α} {width count : Nat} {rva size : UInt32} {short : Fault}
    (hread : Bytes.FixedWidth read width) (hwidth : 0 < width) :
    Survives
      (match (image.cutAt front.size).locate rva size with
        | .error fault => .error fault
        | .ok place => Fault.expect short (Bytes.records? (read front) width place.offset count) :
        Except Fault (List α))
      (match image.locate rva size with
        | .error fault => .error fault
        | .ok place => Fault.expect short (Bytes.records? (read whole) width place.offset count) :
        Except Fault (List α)) := by
  intro row hrow
  split at hrow
  · cases hrow
  · next place hplace =>
    obtain ⟨s, -, hplace⟩ := Image.exists_locate_of_cutAt h.disjoint hplace
    rw [hplace]
    exact Survives.expect
      (fun _ => (hread.records? hwidth count).eq_some_of_begins h.begins) row hrow

/-- A table of words survives. -/
theorem survives_readWords (h : Truncates front whole image) {rva count : UInt32} :
    Survives (readWords front (image.cutAt front.size) rva count)
      (readWords whole image rva count) := by
  rw [readWords, readWords]
  split
  · exact .refl _
  · exact h.survives_row Bytes.fixedWidth_u32? (by decide)

/-- A table of half words survives. -/
theorem survives_readHalfWords (h : Truncates front whole image) {rva count : UInt32} :
    Survives (readHalfWords front (image.cutAt front.size) rva count)
      (readHalfWords whole image rva count) := by
  rw [readHalfWords, readHalfWords]
  split
  · exact .refl _
  · exact h.survives_row Bytes.fixedWidth_u16? (by decide)

/-- The export directory survives. -/
theorem survives_readExportRecord (h : Truncates front whole image) {d : DataDirectory} :
    Survives (readExportRecord front (image.cutAt front.size) d)
      (readExportRecord whole image d) := by
  intro record hrecord
  simp only [readExportRecord, Fault.bind_eq_ok_iff, Fault.expect_eq_ok_iff] at hrecord ⊢
  obtain ⟨place, hplace, r, hr, hrecord⟩ := hrecord
  obtain ⟨s, -, hplace⟩ := Image.exists_locate_of_cutAt h.disjoint hplace
  exact ⟨_, hplace, r, ExportRecord.fixedWidth_read?.eq_some_of_begins h.begins hr, hrecord⟩

/-- The name in an export directory is lost or stays the same. -/
theorem dllName_exportRecord (h : Truncates front whole image) (r : ExportRecord) :
    (r.dllName front (image.cutAt front.size)).value = none ∨
      (r.dllName front (image.cutAt front.size)).value = (r.dllName whole image).value := by
  rw [ExportRecord.dllName, ExportRecord.dllName]
  split
  · exact .inl rfl
  · split
    · next name hname =>
      rw [h.survives_readAscii name hname]
      exact .inr rfl
    · exact .inl rfl

/-- What a slot of the cut file holds remains of what it holds in the whole one. -/
theorem remainsOf_readTarget (h : Truncates front whole image) (d : DataDirectory)
    (rva : UInt32) :
    (readTarget front (image.cutAt front.size) d rva).value.RemainsOf
      (readTarget whole image d rva).value := by
  rw [readTarget, readTarget]
  split
  · exact .inl rfl
  · split
    · split
      · next text htext =>
        rw [h.survives_readAscii text htext]
        exact .inl rfl
      · split
        · exact .inr ⟨_, rfl, rfl⟩
        · exact .inl rfl
    · exact .inl rfl

/-- A name that is read from the cut file is read from the whole one. -/
theorem readName_eq_some (h : Truncates front whole image) {slots : Nat} {rva : UInt32}
    {slot : UInt16} {name : ExportName}
    (hname : (readName front (image.cutAt front.size) slots rva slot).value = some name) :
    (readName whole image slots rva slot).value = some name := by
  rw [readName] at hname ⊢
  split at hname
  · cases hname
  · next hslot =>
    rw [if_neg hslot]
    split at hname
    · next text htext =>
      rw [h.survives_readAscii text htext]
      exact hname
    · cases hname

/-- The names that are read from the cut file are some of those of the whole one, in the same
order. -/
theorem sublist_readNames (h : Truncates front whole image) (r : ExportRecord) (slots : Nat) :
    (r.readNames front (image.cutAt front.size) slots).value.Sublist
      (r.readNames whole image slots).value := by
  rw [ExportRecord.readNames, ExportRecord.readNames]
  split
  · exact List.nil_sublist _
  · next pointers hpointers =>
    rw [h.survives_readWords pointers hpointers]
    dsimp only
    split
    · exact List.nil_sublist _
    · next ordinals hordinals =>
      rw [h.survives_readHalfWords ordinals hordinals]
      simp only [List.filterMap_map]
      exact sublist_filterMap (fun _ _ => h.readName_eq_some) _

/-- If the cut file has an export table, so has the whole one, and the one remains of the other. -/
theorem exists_readExports (h : Truncates front whole image) {cut : ExportTable}
    (hcut : (readExports front (image.cutAt front.size)).value = some cut) :
    ∃ table, (readExports whole image).value = some table ∧ cut.RemainsOf table := by
  obtain ⟨d, r, words, hd, hr, hwords⟩ := exists_of_readExports hcut
  rw [readExports_eq hd hr hwords] at hcut
  obtain rfl := Option.some.inj hcut
  -- The directories of the image are not cut.
  have hd : image.directory? 0 = some d := hd
  rw [readExports_eq hd (h.survives_readExportRecord r hr) (h.survives_readWords words hwords)]
  refine ⟨_, rfl, rfl, ?_, h.dllName_exportRecord r, ?_⟩
  · simp only [List.map_map, List.forall₂_map_left_iff, List.forall₂_map_right_iff,
      List.forall₂_same, Function.comp_apply]
    exact fun rva _ => h.remainsOf_readTarget _ rva
  · exact h.sublist_readNames r words.length

end Truncates

/-- A truncated file makes nothing up. Its DLLs are DLLs of the whole file, each with all of its
symbols or none, and only faults are new among them. Its export table is that of the whole file but
for lost names and the lost texts of forwarders. -/
theorem remainsOf_of_begins {front whole : Bytes} {image cut : Image} (hb : front.Begins whole)
    (h : Image.parse whole = .ok image) (hcut : Image.parse front = .ok cut)
    (hd : image.SectionsDisjoint) :
    DllsRemain (readImports front cut).value.dlls (readImports whole image).value.dlls ∧
      ∀ left, (readExports front cut).value = some left →
        ∃ table, (readExports whole image).value = some table ∧ left.RemainsOf table := by
  obtain ⟨_, himage, rfl⟩ := Image.exists_cutAt_of_parse hb hcut
  obtain rfl : _ = image := Except.ok.inj (himage.symm.trans h)
  have htruncates : Truncates front whole _ := ⟨hb, hd⟩
  exact ⟨htruncates.dllsRemain_readImports, fun left => htruncates.exists_readExports⟩

/-- A file with an import, by name and by ordinal, and an exported forwarder. The text of the
forwarder and the name of the imported symbol come last. -/
def wholeFile : Bytes :=
  fileOf false [⟨4150, 60⟩, ⟨4096, 40⟩] 114
    ((⟨4136, 0, 0, 4148, 0⟩ : ImportRecord).bytes ++ List.replicate 20 0 ++
      wordBytes [4206, 0x80000005, 0] ++ textBytes "D" ++ [0] ++
      (⟨0, 0, 0, 0, 4148, 1, 1, 1, 4190, 4194, 4198⟩ : ExportRecord).bytes ++
      wordBytes [4202, 4200] ++ Bytes.ofWord 2 0 ++ textBytes "e" ++ [0] ++
      textBytes "A.B" ++ [0] ++ Bytes.ofWord 2 7 ++ textBytes "s" ++ [0])

/-- The file without its last six bytes. -/
def truncatedFile : Bytes :=
  ⟨(wholeFile.data.toList.take 348).toArray⟩

/-- The image of that file, of which `size` bytes of raw data are left. -/
def imageLeft (size : UInt32) : Image :=
  imageOf false [⟨4150, 60⟩, ⟨4096, 40⟩] 114 size

/-- The truncated file still has the DLL with both of its symbols, of which the first is invalid,
and the export with its name, which forwards to nothing. -/
theorem remainsOf_truncatedFile :
    (readImports truncatedFile (imageLeft 108)).value.dlls =
        [⟨"D", false, [.invalid (.notFound 4206), .byOrdinal 5]⟩] ∧
      (readExports truncatedFile (imageLeft 108)).value =
        some ⟨some "D", 1, #[.forwarder ""], #[⟨"e", 0⟩], true⟩ ∧
      DllsRemain (readImports truncatedFile (imageLeft 108)).value.dlls
        (readImports wholeFile (imageLeft 114)).value.dlls ∧
      ∃ table, (readExports wholeFile (imageLeft 114)).value = some table ∧
        ExportTable.RemainsOf ⟨some "D", 1, #[.forwarder ""], #[⟨"e", 0⟩], true⟩ table := by
  have hb : truncatedFile.Begins wholeFile := Bytes.begins_take wholeFile 348
  have hexports : (readExports truncatedFile (imageLeft 108)).value =
      some ⟨some "D", 1, #[.forwarder ""], #[⟨"e", 0⟩], true⟩ := by decide +kernel
  have hwhole : Image.parse wholeFile = .ok (imageLeft 114) :=
    Fault.eq_ok_of_toOption (by decide +kernel)
  have hcut : Image.parse truncatedFile = .ok (imageLeft 108) :=
    Fault.eq_ok_of_toOption (by decide +kernel)
  have hremains := remainsOf_of_begins hb hwhole hcut (List.pairwise_singleton ..)
  exact ⟨by decide +kernel, hexports, hremains.1, hremains.2 _ hexports⟩

end DllGraph
