import DllGraph.Proofs.Image.Accounting
import DllGraph.Proofs.Image.RepeatedNames
import DllGraph.Proofs.Listing

/-!
# Ordinals

An export table is walked in three ways: it is listed, its symbols are counted, and an ordinal is
looked up in it. The first walk adds the ordinal base to the index of a slot, and leaves out a slot
whose ordinal would not fit 32 bits; the last one subtracts the base, which may be greater than any
ordinal of 16 bits. The hint of a listed symbol is an index that is cut to 16 bits.

None of the limits is ever met by a table that has been read, because its directory is refused
unless it keeps to them (`isBounded_of_readExports`). So the three walks agree: what is counted is
listed, and what is listed is found.

## Main definitions

* `ExportTable.IsBounded`, what a table owes to the checks of its directory;
* `ExportTable.Names`, how a symbol is named, and `ExportTable.IsListedAt`, how a slot is listed.

## Main results

* `ExportTable.mem_listing_iff_isListedAt` and `ExportTable.length_listing` — the slots that hold
  something are listed, each of them once;
* `listing_of_readExports` — the listing, the counts and the two ways to look up a symbol agree.
-/

namespace DllGraph

namespace ExportTable

variable {t : ExportTable} {slot : Nat} {e e' : Export}

/-! ### Bounds -/

/-- The ordinals of a table fit 32 bits, the positions of its names fit 16 bits, and every name
refers to a slot that the table has. -/
structure IsBounded (t : ExportTable) : Prop where
  ordinals : t.ordinalBase.toNat + t.addresses.size ≤ UInt32.size
  names : t.names.size ≤ UInt16.size
  slots : t.SlotsExist

/-! ### The name of a listed symbol -/

/-- How the symbol of a slot is named: by the first name that refers to the slot, whose position is
the hint, or not at all if no name refers to the slot. -/
inductive Names (t : ExportTable) (slot : Nat) : Option UInt16 → Option String → Prop
  | first {hint : UInt16} {entry : ExportName} (h : t.IsFirstName slot hint.toNat entry) :
    Names t slot (some hint) (some entry.name)
  | unnamed (h : ∀ entry ∈ t.names, entry.slot.toNat ≠ slot) : Names t slot none none

/-- A slot has one first name. -/
theorem IsFirstName.unique {i j : Nat} {entry entry' : ExportName}
    (h : t.IsFirstName slot i entry) (h' : t.IsFirstName slot j entry') : i = j := by
  rcases Nat.lt_trichotomy i j with hlt | heq | hgt
  · exact absurd h.slot_eq (h'.first i hlt entry h.getElem?)
  · exact heq
  · exact absurd h'.slot_eq (h.first j hgt entry' h'.getElem?)

/-- The first name of a slot is a name of the table. -/
theorem IsFirstName.mem {i : Nat} {entry : ExportName} (h : t.IsFirstName slot i entry) :
    entry ∈ t.names :=
  Array.mem_of_getElem? h.getElem?

/-- A slot is listed under one name, with one hint. -/
theorem Names.unique {hint hint' : Option UInt16} {name name' : Option String}
    (h : t.Names slot hint name) (h' : t.Names slot hint' name') : hint = hint' ∧ name = name' := by
  cases h with
  | first h =>
    cases h' with
    | first h' =>
      obtain rfl := UInt16.toNat_inj.1 (h.unique h')
      obtain rfl := Option.some.inj (h.getElem?.symm.trans h'.getElem?)
      exact ⟨rfl, rfl⟩
    | unnamed h' => exact absurd h.slot_eq (h' _ h.mem)
  | unnamed h =>
    cases h' with
    | first h' => exact absurd h'.slot_eq (h _ h'.mem)
    | unnamed => exact ⟨rfl, rfl⟩

/-- A symbol has a name if and only if some name refers to its slot. -/
theorem Names.isSome_iff {hint : Option UInt16} {name : Option String}
    (h : t.Names slot hint name) : name.isSome ↔ ∃ entry ∈ t.names, entry.slot.toNat = slot := by
  cases h with
  | first h => exact iff_of_true rfl ⟨_, h.mem, h.slot_eq⟩
  | unnamed h =>
    refine iff_of_false Bool.false_ne_true ?_
    rintro ⟨entry, hentry, hslot⟩
    exact h entry hentry hslot

/-- Noting names does not change the number of slots. -/
theorem size_foldl_noteName (entries : List (ExportName × Nat))
    (named : Array (Option (UInt16 × String))) :
    (entries.foldl (fun named e => noteName named e.1 e.2) named).size = named.size := by
  induction entries generalizing named with
  | nil => rfl
  | cons entry entries ih => rw [List.foldl_cons, ih, noteName, Array.size_modify]

/-- Something is collected for each slot, be it no name. -/
theorem size_firstNames : t.firstNames.size = t.addresses.size := by
  rw [firstNames, size_foldl_noteName, Array.size_replicate]

/-- No name is collected for a slot if and only if none refers to it. -/
theorem firstNames_eq_none_iff : t.firstNames[slot]? = some none ↔
    slot < t.addresses.size ∧ ∀ entry ∈ t.names, entry.slot.toNat ≠ slot := by
  rw [firstNames, getElem?_foldl_noteName, Array.getElem?_replicate]
  split
  · next hslot =>
    simp only [Option.map_some, Option.none_or, Option.some.injEq, Option.map_eq_none_iff,
      List.find?_eq_none, beq_iff_eq, hslot, true_and]
    constructor
    · intro h entry hentry
      obtain ⟨i, hi⟩ := Array.mem_iff_getElem?.1 hentry
      exact h (entry, i) (List.mem_zipIdx_iff_getElem?.2 (Array.getElem?_toList.trans hi))
    · rintro h ⟨entry, i⟩ hentry
      have hi := List.mem_zipIdx_iff_getElem?.1 hentry
      exact h entry (Array.mem_of_getElem? (Array.getElem?_toList.symm.trans hi))
  · next hslot => simp [hslot]

/-- The position of a name fits a hint. -/
theorem names_of_firstNames (h : t.IsBounded) {named : Option (UInt16 × String)}
    (hnamed : t.firstNames[slot]? = some named) :
    t.Names slot (named.map (·.1)) (named.map (·.2)) := by
  cases named with
  | none => exact .unnamed (firstNames_eq_none_iff.1 hnamed).2
  | some first =>
    obtain ⟨-, i, entry, hfirst, hhint, hname⟩ := firstNames_eq_some_iff.1 hnamed
    have hlt : i < UInt16.size :=
      Nat.lt_of_lt_of_le (Array.getElem?_eq_some_iff.1 hfirst.getElem?).1 h.names
    rw [← UInt16.toNat_ofNat_of_lt' hlt, hhint] at hfirst
    rw [Option.map_some, Option.map_some, ← hname]
    exact .first hfirst

/-! ### The listing -/

/-- How a slot is listed: with what it holds, under the ordinal that it has, and under the name that
refers to it. -/
structure IsListedAt (t : ExportTable) (slot : Nat) (e : Export) : Prop where
  target : t.target? slot = some e.target
  holds : e.target ≠ .empty
  ordinal : e.ordinal.toNat = t.ordinalBase.toNat + slot
  named : t.Names slot e.hint e.name

/-- A slot is listed in one way. -/
theorem IsListedAt.unique (h : t.IsListedAt slot e) (h' : t.IsListedAt slot e') : e = e' := by
  obtain ⟨hhint, hname⟩ := h.named.unique h'.named
  have hordinal := UInt32.toNat_inj.1 (h.ordinal.trans h'.ordinal.symm)
  have htarget := Option.some.inj (h.target.symm.trans h'.target)
  cases e
  cases e'
  exact Export.mk.injEq .. |>.mpr ⟨hordinal, hhint, hname, htarget⟩

/-- A slot that is listed is exported. -/
theorem exports_of_isListedAt (h : t.IsListedAt slot e) : t.Exports slot :=
  ⟨e.target, h.target, h.holds⟩

/-- What is listed is listed for some slot. -/
theorem exists_isListedAt (h : t.IsBounded) (he : e ∈ t.listing) : ∃ slot, t.IsListedAt slot e := by
  obtain ⟨slot, target, named, htarget, hnamed, he⟩ := mem_listing_iff.1 he
  obtain ⟨hholds, hordinal, hhint, hname, rfl⟩ := exportAt?_eq_some_iff.1 he
  exact ⟨slot, htarget, hholds, hordinal, hhint ▸ hname ▸ names_of_firstNames h hnamed⟩

/-- A slot whose ordinal fits 32 bits is listed unless it is empty. -/
theorem isSome_exportAt? {target : ExportTarget} {named : Option (UInt16 × String)}
    (h : t.ordinalBase.toNat + slot < UInt32.size) :
    (t.exportAt? slot target named).isSome = !target.isEmpty := by
  rw [exportAt?, if_pos h]
  cases target.isEmpty <;> rfl

/-- A target is not called empty if and only if it is another one. -/
theorem isEmpty_eq_false_iff {target : ExportTarget} :
    target.isEmpty = false ↔ target ≠ .empty := by
  cases target <;> simp [ExportTarget.isEmpty]

/-- A slot that holds something is listed. -/
theorem exists_mem_listing (h : t.IsBounded) (hslot : t.Exports slot) :
    ∃ e ∈ t.listing, t.IsListedAt slot e := by
  obtain ⟨target, htarget, hholds⟩ := hslot
  have hlt : slot < t.addresses.size := (Array.getElem?_eq_some_iff.1 htarget).1
  have hroom : t.ordinalBase.toNat + slot < UInt32.size :=
    Nat.lt_of_lt_of_le (Nat.add_lt_add_left hlt _) h.ordinals
  obtain ⟨named, hnamed⟩ : ∃ named, t.firstNames[slot]? = some named :=
    ⟨_, Array.getElem?_eq_getElem (Nat.lt_of_lt_of_eq hlt size_firstNames.symm)⟩
  have hsome : (t.exportAt? slot target named).isSome := by
    rw [isSome_exportAt? hroom, isEmpty_eq_false_iff.2 hholds]
    rfl
  obtain ⟨e, he⟩ := Option.isSome_iff_exists.1 hsome
  obtain ⟨-, hordinal, hhint, hname, rfl⟩ := exportAt?_eq_some_iff.1 he
  exact ⟨e, mem_listing_iff.2 ⟨slot, _, _, htarget, hnamed, he⟩, htarget, hholds, hordinal,
    hhint ▸ hname ▸ names_of_firstNames h hnamed⟩

/-- The slots that hold something are listed, and nothing else is. -/
theorem mem_listing_iff_isListedAt (h : t.IsBounded) :
    e ∈ t.listing ↔ ∃ slot, t.IsListedAt slot e := by
  refine ⟨exists_isListedAt h, ?_⟩
  rintro ⟨slot, he⟩
  obtain ⟨e', hmem, he'⟩ := exists_mem_listing h (exports_of_isListedAt he)
  exact he.unique he' ▸ hmem

/-- The ordinals of a listing ascend, as the slots do. -/
theorem pairwise_listing : t.listing.Pairwise (·.ordinal < ·.ordinal) := by
  have hslots : (t.addresses.toList.zip t.firstNames.toList).zipIdx.Pairwise (·.2 < ·.2) := by
    rw [← List.pairwise_map, List.zipIdx_map_snd]
    exact List.pairwise_lt_range'
  refine hslots.filterMap _ fun first second hlt e he e' he' => ?_
  obtain ⟨-, hordinal, -⟩ := exportAt?_eq_some_iff.1 he
  obtain ⟨-, hordinal', -⟩ := exportAt?_eq_some_iff.1 he'
  rw [UInt32.lt_iff_toNat_lt, hordinal, hordinal']
  exact Nat.add_lt_add_left hlt _

/-- As many symbols are listed as there are. -/
theorem length_listing (h : t.IsBounded) : t.listing.length = t.count := by
  have haddresses : (t.addresses.toList.zip t.firstNames.toList).map Prod.fst =
      t.addresses.toList :=
    List.map_fst_zip (by simp [size_firstNames])
  have hlisted : ∀ e ∈ (t.addresses.toList.zip t.firstNames.toList).zipIdx,
      (t.exportAt? e.2 e.1.1 e.1.2).isSome = !e.1.1.isEmpty := by
    rintro ⟨⟨target, named⟩, slot⟩ he
    obtain ⟨htarget, -⟩ := List.getElem?_zip_eq_some.1 (List.mem_zipIdx_iff_getElem?.1 he)
    have hlt : slot < t.addresses.size := by
      simpa using (List.getElem?_eq_some_iff.1 htarget).1
    exact isSome_exportAt? (Nat.lt_of_lt_of_le (Nat.add_lt_add_left hlt _) h.ordinals)
  calc t.listing.length
      = (t.addresses.toList.zip t.firstNames.toList).zipIdx.countP
          fun e => (t.exportAt? e.2 e.1.1 e.1.2).isSome := List.length_filterMap_eq_countP
    _ = (t.addresses.toList.zip t.firstNames.toList).zipIdx.countP fun e => !e.1.1.isEmpty :=
        List.countP_congr fun e he => by rw [hlisted e he]
    _ = (((t.addresses.toList.zip t.firstNames.toList).zipIdx.map Prod.fst).map Prod.fst).countP
          (!·.isEmpty) := by
        rw [List.countP_map, List.countP_map]
        rfl
    _ = t.count := by rw [List.zipIdx_map_fst, haddresses, count]

/-- An ordinal is found at the slot that is listed under it. -/
theorem findByOrdinal?_eq_some_iff_listed (h : t.IsBounded) {ordinal : UInt16} :
    t.findByOrdinal? ordinal = some slot ↔
      ∃ e ∈ t.listing, e.ordinal.toNat = ordinal.toNat ∧ t.IsListedAt slot e := by
  rw [findByOrdinal?_eq_some_iff]
  constructor
  · rintro ⟨hbase, rfl, hslot⟩
    obtain ⟨e, he, hlisted⟩ := exists_mem_listing h hslot
    exact ⟨e, he, by rw [hlisted.ordinal]; omega, hlisted⟩
  · rintro ⟨e, -, hordinal, hlisted⟩
    have hslot := hlisted.ordinal
    exact ⟨by omega, by omega, exports_of_isListedAt hlisted⟩

end ExportTable

/-! ### The table of an image -/

variable {b : Bytes} {image : Image} {t : ExportTable}

/-- An export directory that is accepted leaves room for the ordinals of its slots. -/
theorem ordinals_le_of_readExportRecord {d : DataDirectory} {r : ExportRecord}
    (h : readExportRecord b image d = .ok r) :
    r.ordinalBase.toNat + r.addressCount.toNat ≤ UInt32.size := by
  obtain ⟨-, -, -, hfault⟩ := Image.readExportRecord_eq_ok_iff.1 h
  rw [ExportRecord.fault?] at hfault
  split at hfault
  · cases hfault
  · split at hfault
    · cases hfault
    · next hroom => exact Nat.le_of_not_lt hroom

/-- No more names are read than the directory declares. -/
theorem length_readNames_le (r : ExportRecord) (slots : Nat) :
    (r.readNames b image slots).value.length ≤ r.nameCount.toNat := by
  rw [ExportRecord.readNames]
  split
  · exact Nat.zero_le _
  · next pointers hpointers =>
    split
    · exact Nat.zero_le _
    · next ordinals _ =>
      calc _ ≤ ((pointers.zip ordinals).map fun e => readName b image slots e.1 e.2).length :=
            List.length_filterMap_le ..
        _ ≤ pointers.length := by
            rw [List.length_map, List.length_zip]
            exact Nat.min_le_left ..
        _ = r.nameCount.toNat := length_of_readWords hpointers

/-- A table that is read keeps to the bounds that its directory has been checked for. -/
theorem isBounded_of_readExports (h : (readExports b image).value = some t) : t.IsBounded := by
  have hslots : t.SlotsExist := slotsExist_of_readExports h
  obtain ⟨d, r, words, hd, hr, hwords⟩ := exists_of_readExports h
  rw [readExports_eq hd hr hwords] at h
  obtain rfl := Option.some.inj h
  refine ⟨?_, ?_, hslots⟩
  · simpa [length_of_readWords hwords] using ordinals_le_of_readExportRecord hr
  · have hcount : (r.readNames b image words.length).value.length ≤ UInt16.size :=
      Nat.le_trans (length_readNames_le r words.length) (Image.counts_le_of_readExportRecord hr).2
    simpa using hcount

/-- The walks over a table that has been read agree. No name leads out of the table, so the slot of
whatever name is found is answered. The listing has as many entries as there are exported symbols,
in the order of their ordinals, and they are those of the slots that hold something: each slot
under its own ordinal, and under the first name that refers to it, if any does. An ordinal is found
if and only if it is listed, at the slot that is listed under it. -/
theorem listing_of_readExports (h : (readExports b image).value = some t) :
    (∀ entry ∈ t.names, entry.slot.toNat < t.addresses.size) ∧
    (∀ name, t.findByName? name =
      ((t.position? name).bind (t.names[·]?)).map (·.slot.toNat)) ∧
    t.listing.length = t.count ∧
    t.listing.Pairwise (·.ordinal < ·.ordinal) ∧
    (∀ e, e ∈ t.listing ↔ ∃ slot, t.IsListedAt slot e) ∧
    (∀ slot, t.Exports slot → ∃ e ∈ t.listing, t.IsListedAt slot e) ∧
    (∀ slot e, t.IsListedAt slot e →
      (e.name.isSome ↔ ∃ entry ∈ t.names, entry.slot.toNat = slot)) ∧
    ∀ ordinal slot, t.findByOrdinal? ordinal = some slot ↔
      ∃ e ∈ t.listing, e.ordinal.toNat = ordinal.toNat ∧ t.IsListedAt slot e := by
  have hbounded : t.IsBounded := isBounded_of_readExports h
  refine ⟨hbounded.slots, fun name => ExportTable.findByName?_eq_map hbounded.slots,
    ExportTable.length_listing hbounded, ExportTable.pairwise_listing, fun e => ?_,
    fun slot => ?_, fun slot e he => ?_, fun ordinal slot => ?_⟩
  · exact ExportTable.mem_listing_iff_isListedAt hbounded
  · exact ExportTable.exists_mem_listing hbounded
  · exact he.named.isSome_iff
  · exact ExportTable.findByOrdinal?_eq_some_iff_listed hbounded

/-- A file that exports two symbols, of which one has two names, with an empty slot between them. -/
def sharedFile : Bytes :=
  fileOf false [⟨4096, 40⟩] 76
    ((⟨0, 0, 0, 0, 0, 7, 3, 3, 4136, 4148, 4160⟩ : ExportRecord).bytes ++
      wordBytes [4136, 0, 4140] ++ wordBytes [4166, 4168, 4170] ++ halfWordBytes [2, 2, 0] ++
      textBytes "a" ++ [0] ++ textBytes "b" ++ [0] ++ textBytes "c" ++ [0])

/-- The image of that file. -/
def sharedImage : Image :=
  imageOf false [⟨4096, 40⟩] 76 76

/-- The exports of that file. -/
def sharedTable : ExportTable where
  dllName := none
  ordinalBase := 7
  addresses := #[.code 4136, .empty, .code 4140]
  names := #[⟨"a", 2⟩, ⟨"b", 2⟩, ⟨"c", 0⟩]
  namesSorted := true

/-- The second symbol is listed under its first name, and is found under its ordinal. -/
theorem listing_of_readExports_sharedTable :
    (readExports sharedFile sharedImage).value = some sharedTable ∧
      sharedTable.listing.length = 2 ∧
      sharedTable.IsListedAt 2 ⟨9, some 0, some "a", .code 4140⟩ ∧
      sharedTable.findByOrdinal? 9 = some 2 := by
  have h : (readExports sharedFile sharedImage).value = some sharedTable := by decide +kernel
  obtain ⟨-, -, hlength, -, hlisted, -, -, hfound⟩ := listing_of_readExports h
  have hmem : ⟨9, some 0, some "a", .code 4140⟩ ∈ sharedTable.listing := by decide +kernel
  obtain ⟨slot, hslot⟩ := (hlisted _).1 hmem
  obtain rfl : slot = 2 := (Nat.add_left_cancel (hslot.ordinal : 7 + 2 = 7 + slot)).symm
  exact ⟨h, hlength, hslot, (hfound 9 2).2 ⟨_, hmem, rfl, hslot⟩⟩

end DllGraph
