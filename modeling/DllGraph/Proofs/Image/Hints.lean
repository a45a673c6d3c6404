import DllGraph.Proofs.Image.Accounting
import DllGraph.Proofs.Listing

/-!
# Hints of Exported Symbols

The hint of a symbol is meant to be the position of its name in the name pointer table of the file.
What is listed is its position among the names that have been read, and names that cannot be read or
that refer to no slot are not among them. So the hint falls short of the position in the file by the
number of names that have been left out before it, and is right exactly if there is none.

## Main definitions

* `ExportRecord.HasNameAt`, the name at a position of the name pointer table;
* `Export.IsNamedAt`, that this is the name of a symbol;
* `Export.IsFirstNamedAt`, that no name before it is listed for the slot of the symbol.

## Main results

* `getElem?_filter_eq_some_iff` — the position of an element that is left among those that are left;
* `hint_of_mem_listing` — what the hint of a symbol is, and when it is the position of its name.
-/

namespace DllGraph

/-! ### Positions -/

section Positions

variable {α : Type} {p : α → Bool} {l : List α} {a : α}

/-- The position of an element among those that satisfy a predicate is the number of those before
it. -/
theorem getElem?_filter_eq_some_iff {n : Nat} : (l.filter p)[n]? = some a ↔
    ∃ i, l[i]? = some a ∧ p a = true ∧ (l.take i).countP p = n := by
  induction l generalizing n with
  | nil => simp
  | cons first l ih =>
    -- The element is the first one, or it stands one position later than in the rest.
    rw [← Nat.or_exists_add_one]
    simp only [List.getElem?_cons_zero, List.getElem?_cons_succ, List.take_zero,
      List.take_succ_cons, List.countP_nil, List.countP_cons, Option.some.injEq]
    by_cases hfirst : p first = true
    · rw [List.filter_cons_of_pos hfirst]
      cases n with
      | zero => simpa [hfirst] using fun heq : first = a => heq ▸ hfirst
      | succ n => simp [hfirst, ih]
    · have hne : ¬(first = a ∧ p a = true ∧ 0 = n) := by
        rintro ⟨rfl, ha, -⟩
        exact hfirst ha
      rw [List.filter_cons_of_neg hfirst, ih]
      simp [hfirst, hne]

/-- An element that satisfies a predicate is counted before all later positions. -/
theorem countP_take_lt {i j : Nat} (hij : i < j) (hi : l[i]? = some a) (ha : p a = true) :
    (l.take i).countP p < (l.take j).countP p := by
  have hnext : (l.take (i + 1)).countP p = (l.take i).countP p + 1 := by
    rw [List.take_add_one, hi, List.countP_append]
    simp [ha]
  have hle : (l.take (i + 1)).countP p ≤ (l.take j).countP p :=
    (List.take_sublist_take_left hij).countP_le
  omega

/-- What is at a position of the second of two related lists is related to what is there in the
first. -/
theorem exists_getElem?_of_forall₂ {β : Type} {r : α → β → Prop} {as : List α} {bs : List β}
    (h : List.Forall₂ r as bs) {i : Nat} {b : β} (hb : bs[i]? = some b) :
    ∃ a, as[i]? = some a ∧ r a b := by
  obtain ⟨hi, rfl⟩ := List.getElem?_eq_some_iff.1 hb
  have hi' : i < as.length := h.length_eq ▸ hi
  exact ⟨as[i], List.getElem?_eq_getElem hi', h.get hi' hi⟩

end Positions

/-! ### Names in the file -/

variable {b : Bytes} {image : Image} {r : ExportRecord} {t : ExportTable} {e : Export}

/-- The words at a position of the name pointer table and of the ordinal table, of which an export
directory declares so many. -/
structure ExportRecord.HasNameAt (r : ExportRecord) (b : Bytes) (image : Image) (i : Nat)
    (entry : UInt32 × UInt16) : Prop where
  lt : i < r.nameCount.toNat
  pointer : ∃ place, image.locate r.nameTable (r.nameCount * 4) = .ok place ∧
    b.u32? (place.offset + 4 * i) = some entry.1
  ordinal : ∃ place, image.locate r.ordinalTable (r.nameCount * 2) = .ok place ∧
    b.u16? (place.offset + 2 * i) = some entry.2

/-- The name of a symbol stands at a position of the name pointer table: the address there is that
of its text, and the word of the ordinal table is its ordinal, counted from the ordinal base. -/
def Export.IsNamedAt (e : Export) (b : Bytes) (image : Image) (r : ExportRecord) (i : Nat) : Prop :=
  ∃ rva slot name, r.HasNameAt b image i (rva, slot) ∧
    readAscii b image rva maxSymbolName = .ok name ∧ e.name = some name ∧
    e.ordinal.toNat = r.ordinalBase.toNat + slot.toNat

/-- The record at an index of a row that is not empty is read at its offset. -/
theorem exists_of_row {α : Type} {read? : Nat → Option α} {rva size count : UInt32} {width : Nat}
    {short : Fault} {row : List α}
    (h : (if count = 0 then .ok []
      else
        match image.locate rva size with
        | .error fault => .error fault
        | .ok place => Fault.expect short (Bytes.records? read? width place.offset count.toNat) :
        Except Fault (List α)) = .ok row) {i : Nat} {a : α} (ha : row[i]? = some a) :
    ∃ place, image.locate rva size = .ok place ∧ read? (place.offset + width * i) = some a := by
  split at h
  · cases h
    cases ha
  · split at h
    · cases h
    · next place hplace =>
      exact ⟨place, hplace, Bytes.getElem?_records? (Fault.expect_eq_ok_iff.1 h) ha⟩

namespace ExportRecord

variable {entries : List (UInt32 × UInt16)} {entry : UInt32 × UInt16} {i : Nat}

/-- There are as many entries of names as the export directory says. -/
theorem length_nameEntries (h : r.nameEntries b image = .ok entries) :
    entries.length = r.nameCount.toNat := by
  simp only [nameEntries, Fault.bind_eq_ok_iff, Fault.pure_eq_ok_iff] at h
  obtain ⟨pointers, hpointers, ordinals, hordinals, rfl⟩ := h
  rw [List.length_zip, length_of_readWords hpointers, length_of_readHalfWords hordinals,
    Nat.min_self]

/-- The names that are read stand in the file in their order. -/
theorem hasNameAt_of_getElem? (h : r.nameEntries b image = .ok entries)
    (hi : entries[i]? = some entry) : r.HasNameAt b image i entry := by
  have hlt : i < entries.length := (List.getElem?_eq_some_iff.1 hi).1
  rw [length_nameEntries h] at hlt
  simp only [nameEntries, Fault.bind_eq_ok_iff, Fault.pure_eq_ok_iff] at h
  obtain ⟨pointers, hpointers, ordinals, hordinals, rfl⟩ := h
  obtain ⟨hpointer, hordinal⟩ := List.getElem?_zip_eq_some.1 hi
  exact ⟨hlt, exists_of_row hpointers hpointer, exists_of_row hordinals hordinal⟩

/-- There is one entry at a position of the name table. -/
theorem HasNameAt.unique {entry' : UInt32 × UInt16} (h : r.HasNameAt b image i entry)
    (h' : r.HasNameAt b image i entry') : entry = entry' := by
  obtain ⟨place, hplace, hpointer⟩ := h.pointer
  obtain ⟨place', hplace', hpointer'⟩ := h'.pointer
  obtain rfl : place = place' := Except.ok.inj (hplace.symm.trans hplace')
  obtain ⟨table, htable, hordinal⟩ := h.ordinal
  obtain ⟨table', htable', hordinal'⟩ := h'.ordinal
  obtain rfl : table = table' := Except.ok.inj (htable.symm.trans htable')
  exact Prod.ext (Option.some.inj (hpointer.symm.trans hpointer'))
    (Option.some.inj (hordinal.symm.trans hordinal'))

/-- All names that stand in the file are read. -/
theorem HasNameAt.getElem?_eq_some (hat : r.HasNameAt b image i entry)
    (h : r.nameEntries b image = .ok entries) : entries[i]? = some entry := by
  have hlt : i < entries.length := length_nameEntries h ▸ hat.lt
  have hread := List.getElem?_eq_getElem hlt
  rw [hread, hat.unique (hasNameAt_of_getElem? h hread)]

end ExportRecord

/-! ### Hints -/

/-- If there is a name, then the tables of names can be read, and the names are those of their
entries that are listed. -/
theorem NamesAccountFor.exists_entries {slots : Nat} {names : List ExportName}
    {faults : List Fault} (h : NamesAccountFor b image slots r names faults) (hne : names ≠ []) :
    ∃ entries, r.nameEntries b image = .ok entries ∧
      List.Forall₂ (ExportName.ListedAs b image)
        (entries.filter (ExportName.isListed b image slots)) names := by
  cases h with
  | missing => exact absurd rfl hne
  | listed hentries _ hlisted _ => exact ⟨_, hentries, hlisted⟩

/-- The names of a table that is read are those of the file that are not left out. -/
theorem exists_nameEntries_of_readExports (h : (readExports b image).value = some t)
    (hne : t.names.toList ≠ []) :
    ∃ d r entries, image.directory? 0 = some d ∧ readExportRecord b image d = .ok r ∧
      t.ordinalBase = r.ordinalBase ∧ r.nameEntries b image = .ok entries ∧
      List.Forall₂ (ExportName.ListedAs b image)
        (entries.filter (ExportName.isListed b image t.addresses.size)) t.names.toList := by
  obtain ⟨d, r, words, hd, hr, hwords⟩ := exists_of_readExports h
  have hnames := namesAccountFor_readNames b image words.length r
  rw [readExports_eq hd hr hwords] at h
  obtain rfl := Option.some.inj h
  obtain ⟨entries, hentries, hlisted⟩ := hnames.exists_entries hne
  exact ⟨d, r, entries, hd, hr, rfl, hentries, by simpa using hlisted⟩

/-- The name of a symbol stands at a position, and no name that is listed stands before it that
refers to the same slot. -/
structure Export.IsFirstNamedAt (e : Export) (b : Bytes) (image : Image) (r : ExportRecord)
    (listed : UInt32 × UInt16 → Bool) (entries : List (UInt32 × UInt16)) (i : Nat) : Prop where
  named : e.IsNamedAt b image r i
  isListed : ∃ entry, entries[i]? = some entry ∧ listed entry = true
  first : ∀ j < i, ∀ entry, entries[j]? = some entry → listed entry = true →
    e.ordinal.toNat ≠ r.ordinalBase.toNat + entry.2.toNat

/-- An entry is listed if and only if its slot is one of the table and its name can be read. -/
theorem ExportName.isListed_iff {slots : Nat} {entry : UInt32 × UInt16} :
    isListed b image slots entry = true ↔
      entry.2.toNat < slots ∧ ∃ name, readAscii b image entry.1 maxSymbolName = .ok name := by
  rw [isListed, Bool.and_eq_true, decide_eq_true_iff]
  cases readAscii b image entry.1 maxSymbolName <;> simp [Except.isOk, Except.toBool]

/-- A symbol has no name before the first one that is listed for its slot: such a name would be
listed as well. -/
theorem Export.IsFirstNamedAt.not_isNamedAt {slots i j : Nat} {entries : List (UInt32 × UInt16)}
    (h : e.IsFirstNamedAt b image r (ExportName.isListed b image slots) entries i)
    (hentries : r.nameEntries b image = .ok entries) (hj : j < i) :
    ¬ e.IsNamedAt b image r j := by
  rintro ⟨rva, slot, name, hat, htext, -, hordinal⟩
  obtain ⟨entry, hi, hlisted⟩ := h.isListed
  obtain ⟨rva', slot', -, hat', -, -, hordinal'⟩ := h.named
  obtain rfl : (rva', slot') = entry :=
    Option.some.inj ((hat'.getElem?_eq_some hentries).symm.trans hi)
  have hslot : slot = slot' := UInt16.toNat_inj.1 (Nat.add_left_cancel (hordinal ▸ hordinal'))
  have hslots : slot.toNat < slots := hslot ▸ (ExportName.isListed_iff.1 hlisted).1
  exact h.first j hj _ (hat.getElem?_eq_some hentries)
    (ExportName.isListed_iff.2 ⟨hslots, name, htext⟩) hordinal

/-- The symbol is named at the number of listed names before its first one if and only if all names
before that one are listed. -/
theorem Export.IsFirstNamedAt.isNamedAt_countP_iff {slots i : Nat}
    {entries : List (UInt32 × UInt16)}
    (h : e.IsFirstNamedAt b image r (ExportName.isListed b image slots) entries i)
    (hentries : r.nameEntries b image = .ok entries) :
    e.IsNamedAt b image r ((entries.take i).countP (ExportName.isListed b image slots)) ↔
      ∀ entry ∈ entries.take i, ExportName.isListed b image slots entry = true := by
  obtain ⟨entry, hi, hlisted⟩ := h.isListed
  have hlength : (entries.take i).length = i :=
    List.length_take_of_le (Nat.le_of_lt (List.getElem?_eq_some_iff.1 hi).1)
  have hle : (entries.take i).countP (ExportName.isListed b image slots) ≤ i :=
    Nat.le_trans List.countP_le_length (Nat.le_of_eq hlength)
  constructor
  · intro hnamed
    rcases Nat.lt_or_eq_of_le hle with hlt | heq
    · exact absurd hnamed (h.not_isNamedAt hentries hlt)
    · rw [← List.countP_eq_length, heq, hlength]
  · intro hall
    rw [List.countP_eq_length.2 hall, hlength]
    exact h.named

/-- The hint of a symbol counts the listed names before the first one that is its own. -/
theorem exists_isFirstNamedAt (h : (readExports b image).value = some t) (he : e ∈ t.listing)
    {hint : UInt16} (hhint : e.hint = some hint) :
    ∃ d r entries i, image.directory? 0 = some d ∧ readExportRecord b image d = .ok r ∧
      r.nameEntries b image = .ok entries ∧
      e.IsFirstNamedAt b image r (ExportName.isListed b image t.addresses.size) entries i ∧
      hint.toNat = (entries.take i).countP (ExportName.isListed b image t.addresses.size) := by
  obtain ⟨slot, n, entry, hordinal, hfirst, rfl, hname⟩ :=
    ExportTable.exists_isFirstName_of_mem_listing he hhint
  have hn : t.names.toList[n]? = some entry := Array.getElem?_toList.trans hfirst.getElem?
  obtain ⟨d, r, entries, hd, hr, hbase, hentries, hnames⟩ :=
    exists_nameEntries_of_readExports h (List.ne_nil_of_mem (List.mem_of_getElem? hn))
  obtain ⟨pair, hpair, htext, hslot⟩ := exists_getElem?_of_forall₂ hnames hn
  obtain ⟨i, hi, hlisted, rfl⟩ := getElem?_filter_eq_some_iff.1 hpair
  have hat := ExportRecord.hasNameAt_of_getElem? hentries hi
  -- There are no more names than positions of 16 bits.
  have hlt : (entries.take i).countP (ExportName.isListed b image t.addresses.size) <
      UInt16.size := calc
    _ ≤ (entries.take i).length := List.countP_le_length
    _ ≤ i := List.length_take_le i entries
    _ < r.nameCount.toNat := hat.lt
    _ ≤ UInt16.size := (Image.counts_le_of_readExportRecord hr).2
  refine ⟨d, r, entries, i, hd, hr, hentries, ⟨?_, ⟨pair, hi, hlisted⟩, ?_⟩,
    UInt16.toNat_ofNat_of_lt' hlt⟩
  · exact ⟨pair.1, pair.2, entry.name, hat, htext, hname, by
      rw [hordinal, hbase, ← hslot, hfirst.slot_eq]⟩
  · intro j hj other hother hotherListed hsame
    have hkept := getElem?_filter_eq_some_iff.2 ⟨j, hother, hotherListed, rfl⟩
    obtain ⟨name, hname', hnamed⟩ := exists_getElem?_of_forall₂ hnames.flip hkept
    rw [Array.getElem?_toList] at hname'
    refine hfirst.first _ (countP_take_lt hj hother hotherListed) name hname' ?_
    rw [hordinal, hbase] at hsame
    rw [hnamed.slot]
    exact (Nat.add_left_cancel hsame).symm

/-- A symbol that is listed with a hint has the name at some position of the name pointer table, the
first one that is listed for its slot. The hint is the number of listed names before it. So it is
the position of the name of the symbol if and only if all names before it are listed. -/
theorem hint_of_mem_listing (h : (readExports b image).value = some t) (he : e ∈ t.listing)
    {hint : UInt16} (hhint : e.hint = some hint) :
    ∃ d r entries i, image.directory? 0 = some d ∧ readExportRecord b image d = .ok r ∧
      r.nameEntries b image = .ok entries ∧
      e.IsFirstNamedAt b image r (ExportName.isListed b image t.addresses.size) entries i ∧
      hint.toNat = (entries.take i).countP (ExportName.isListed b image t.addresses.size) ∧
      (e.IsNamedAt b image r hint.toNat ↔ ∀ entry ∈ entries.take i,
        ExportName.isListed b image t.addresses.size entry = true) := by
  obtain ⟨d, r, entries, i, hd, hr, hentries, hfirst, hcount⟩ := exists_isFirstNamedAt h he hhint
  refine ⟨d, r, entries, i, hd, hr, hentries, hfirst, hcount, ?_⟩
  rw [hcount]
  exact hfirst.isNamedAt_countP_iff hentries

/-- An export directory with one slot and two names. -/
def strayRecord : ExportRecord :=
  ⟨0, 0, 0, 0, 0, 1, 1, 2, 4136, 4140, 4148⟩

/-- A file with this directory. The first name refers to a slot that there is not. -/
def strayFile : Bytes :=
  fileOf false [⟨4096, 40⟩] 60
    (strayRecord.bytes ++ wordBytes [4136] ++ wordBytes [4152, 4154] ++ halfWordBytes [5, 0] ++
      textBytes "a" ++ [0] ++ textBytes "b" ++ [0])

/-- The image of that file. -/
def strayImage : Image :=
  imageOf false [⟨4096, 40⟩] 60 60

/-- The exports of that file, without the first name. -/
def strayTable : ExportTable where
  dllName := none
  ordinalBase := 1
  addresses := #[.code 4136]
  names := #[⟨"b", 0⟩]
  namesSorted := true

/-- The exported symbol, as it is listed. -/
def strayExport : Export :=
  ⟨1, some 0, some "b", .code 4136⟩

/-- The export table of the sample file. -/
theorem readExports_strayFile :
    (readExports strayFile strayImage).value = some strayTable := by
  decide +kernel

/-- The symbol of the one slot that has a name is listed. -/
theorem mem_listing_strayTable : strayExport ∈ strayTable.listing := by
  decide +kernel

/-- The export directory of the sample file. -/
theorem readExportRecord_strayFile :
    readExportRecord strayFile strayImage ⟨4096, 40⟩ = .ok strayRecord :=
  Fault.eq_ok_of_toOption (by decide +kernel)

/-- The entries of the name table of the sample file, of which the first one has no slot. -/
theorem nameEntries_strayFile :
    strayRecord.nameEntries strayFile strayImage = .ok [(4152, 5), (4154, 0)] :=
  Fault.eq_ok_of_toOption (by decide +kernel)

/-- The name of the symbol stands at the position 1, and there is no listed name before it. -/
theorem hint_of_mem_listing_strayTable :
    (readExports strayFile strayImage).value = some strayTable ∧
      strayExport ∈ strayTable.listing ∧
      strayExport.IsFirstNamedAt strayFile strayImage strayRecord
        (ExportName.isListed strayFile strayImage 1) [(4152, 5), (4154, 0)] 1 ∧
      strayExport.hint = some 0 ∧ ¬ strayExport.IsNamedAt strayFile strayImage strayRecord 0 := by
  have hdirectory : strayImage.directory? 0 = some ⟨4096, 40⟩ := by decide +kernel
  have hstray : ExportName.isListed strayFile strayImage 1 (4152, 5) = false := by decide +kernel
  obtain ⟨d, r, entries, i, hd, hr, hentries, hfirst, -, hright⟩ :=
    hint_of_mem_listing readExports_strayFile mem_listing_strayTable rfl
  obtain rfl := Option.some.inj (hdirectory.symm.trans hd)
  obtain rfl := Except.ok.inj (readExportRecord_strayFile.symm.trans hr)
  obtain rfl := Except.ok.inj (nameEntries_strayFile.symm.trans hentries)
  obtain rfl : i = 1 := by
    obtain ⟨entry, hi, hlisted⟩ := hfirst.isListed
    match i, hi with
    | 0, rfl => exact absurd (hstray.symm.trans hlisted) (by decide)
    | 1, _ => rfl
  refine ⟨readExports_strayFile, mem_listing_strayTable, hfirst, rfl, fun hnamed => ?_⟩
  have hlisted := hright.1 hnamed (4152, 5) List.mem_cons_self
  exact absurd (hstray.symm.trans hlisted) (by decide)

/-- So the hint of a symbol is not the position of its name in every accepted file. -/
theorem exists_hint_not_position :
    ¬∀ (b : Bytes) (image : Image) (t : ExportTable), Image.parse b = .ok image →
      (readExports b image).value = some t →
      ∀ d r, image.directory? 0 = some d → readExportRecord b image d = .ok r →
      ∀ e ∈ t.listing, ∀ hint name, e.hint = some hint → e.name = some name →
        e.IsNamedAt b image r hint.toNat := by
  intro hall
  have hparse : Image.parse strayFile = .ok strayImage :=
    Fault.eq_ok_of_toOption (by decide +kernel)
  have hdirectory : strayImage.directory? 0 = some ⟨4096, 40⟩ := by decide +kernel
  have hnamed : strayExport.IsNamedAt strayFile strayImage strayRecord 0 :=
    hall _ _ _ hparse readExports_strayFile _ _ hdirectory readExportRecord_strayFile _
      mem_listing_strayTable 0 "b" rfl rfl
  obtain ⟨rva, slot, name, hat, -, -, hordinal⟩ := hnamed
  -- The entry at the position 0 is the one that refers to no slot.
  obtain ⟨rfl, rfl⟩ : 4152 = rva ∧ 5 = slot :=
    Prod.mk.inj (Option.some.inj (hat.getElem?_eq_some nameEntries_strayFile))
  exact absurd hordinal (by decide)

end DllGraph
