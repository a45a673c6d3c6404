import DllGraph.Proofs.Exports
import DllGraph.Proofs.Image.StoredImports

/-!
# Stored Exports

How exports are laid out in a file, and that what is laid out in this way is read back. As with the
imports, the layout is free: each array and each text may be at any address. The address of a slot
has two meanings, though. If it lies in the export directory then it is that of a text, and
otherwise it is what the slot exports.

## Main definitions

* `Image.HoldsText` and `Image.HoldsRow`, how a text and an array are stored;
* `ExportTarget.StoredAt` and `ExportName.StoredAt`, how a slot and a name are stored;
* `Image.HoldsExports`, how an export table is stored.

## Main results

* `textBytes_le_iff` — printable texts are ordered as their bytes are;
* `readWords_of_holdsRow` and `readTarget_of_storedAt` — what is stored is read, array by array and
  slot by slot;
* `readExports_of_holdsExports` — and so is an export table.
-/

namespace DllGraph

open Bytes

variable {b : Bytes} {image : Image} {rva : UInt32}

/-! ### The order of names -/

/-- Printable texts are ordered as their bytes are. -/
theorem textBytes_lt_iff {text text' : String} (h : IsPrintable text) (h' : IsPrintable text') :
    textBytes text < textBytes text' ↔ text < text' := by
  rw [String.lt_iff_toList_lt, textBytes, textBytes]
  rw [IsPrintable] at h h'
  generalize text.toList = cs, text'.toList = ds at h h'
  induction cs generalizing ds with
  | nil => cases ds <;> simp
  | cons c cs ih =>
    cases ds with
    | nil => simp
    | cons d ds =>
      obtain ⟨hc, hcs⟩ := List.forall_mem_cons.1 h
      obtain ⟨hd, hds⟩ := List.forall_mem_cons.1 h'
      have hlt : UInt8.ofNat c.toNat < UInt8.ofNat d.toNat ↔ c < d := by
        rw [UInt8.lt_iff_toNat_lt, toNat_of_isPrintable hc, toNat_of_isPrintable hd]
        rfl
      have heq : UInt8.ofNat c.toNat = UInt8.ofNat d.toNat ↔ c = d := by
        rw [← UInt8.toNat_inj, toNat_of_isPrintable hc, toNat_of_isPrintable hd, Char.toNat_inj]
      rw [List.map_cons, List.map_cons, List.cons_lt_cons_iff, List.cons_lt_cons_iff, hlt, heq,
        ih ds hcs hds]

/-- Printable texts are in the order of their bytes. -/
theorem textBytes_le_iff {text text' : String} (h : IsPrintable text) (h' : IsPrintable text') :
    textBytes text ≤ textBytes text' ↔ text ≤ text' :=
  List.not_lt.symm.trans ((not_congr (textBytes_lt_iff h' h)).trans not_lt)

/-- Names ascend if and only if their bytes do. -/
theorem namesAscend_iff {names : List ExportName} (h : ∀ name ∈ names, IsPrintable name.name) :
    namesAscend names = true ↔
      names.Pairwise fun name name' => textBytes name.name ≤ textBytes name'.name := by
  have hbytes : names.Pairwise (fun name name' => textBytes name.name ≤ textBytes name'.name) ↔
      names.Pairwise (·.name ≤ ·.name) :=
    List.Pairwise.iff_of_mem fun hname hname' => textBytes_le_iff (h _ hname) (h _ hname')
  rw [hbytes]
  exact ⟨pairwise_of_namesAscend, namesAscend_of_pairwise⟩

/-! ### Texts and arrays -/

namespace Image

/-- A text of at most so many characters is stored at an address. -/
structure HoldsText (image : Image) (b : Bytes) (rva : UInt32) (text : String) (longest : Nat) :
    Prop where
  address : rva ≠ 0
  printable : IsPrintable text
  length : 1 ≤ text.length ∧ text.length ≤ longest
  holds : image.Holds b rva (textBytes text ++ [0])

/-- An array is stored at an address. If it is empty, it may be anywhere. -/
def HoldsRow (image : Image) (b : Bytes) (rva : UInt32) (bytes : List UInt8) : Prop :=
  bytes ≠ [] → rva ≠ 0 ∧ image.Holds b rva bytes

/-- What is stored at an address is found there, as an object of its size. -/
theorem Holds.locate_eq {bytes : List UInt8} (h : image.Holds b rva bytes) {size : UInt32}
    (hsize : size.toNat = bytes.length) :
    ∃ place, image.locate rva size = .ok place ∧ b.Stores place.offset bytes := by
  obtain ⟨place, hplace, hstores, hend⟩ := h
  obtain ⟨hhosts, hoffset, -⟩ := locate_eq_ok_iff.1 hplace
  exact ⟨place, locate_eq_ok_iff.2 ⟨hhosts, hoffset, hsize ▸ hend⟩, hstores⟩

end Image

/-- A text that an image holds is read from its address, if the limit allows for the longest one. -/
theorem readAscii_of_holdsText {text : String} {longest maxLength : Nat}
    (hmax : longest < maxLength) (h : image.HoldsText b rva text longest) :
    readAscii b image rva maxLength = .ok text := by
  refine readAscii_of_holds h.address h.printable ?_ (Nat.lt_of_le_of_lt h.length.2 hmax) h.holds
  rintro rfl
  exact absurd h.length.1 (by decide)

/-- The entries of an array that is stored are read. -/
theorem row_of_holdsRow {α : Type} {read? : Nat → Option α} {bytes : α → List UInt8}
    {width count : UInt32} {entries : List α} {short : Fault}
    (hread : ∀ e offset, b.Stores offset (bytes e) → read? offset = some e)
    (hwidth : ∀ e, (bytes e).length = width.toNat) (hbounds : 0 < width.toNat ∧ width.toNat ≤ 4)
    (hcount : count.toNat = entries.length) (hmax : entries.length ≤ maxExports)
    (h : image.HoldsRow b rva (entries.flatMap bytes)) :
    (if count = 0 then .ok []
      else
        match image.locate rva (count * width) with
        | .error fault => .error fault
        | .ok place => Fault.expect short (records? read? width.toNat place.offset count.toNat) :
        Except Fault (List α)) = .ok entries := by
  split
  · next hzero =>
    rw [hzero] at hcount
    rw [List.length_eq_zero_iff.1 hcount.symm]
  · next hpos =>
    have hlength : (entries.flatMap bytes).length = width.toNat * entries.length :=
      length_flatMap_bytes fun e _ => hwidth e
    -- The size of the array fits 32 bits.
    have hsize : (count * width).toNat = (entries.flatMap bytes).length := by
      have hprod : count.toNat * width.toNat ≤ maxExports * 4 :=
        Nat.mul_le_mul (hcount ▸ hmax) hbounds.2
      rw [hlength, UInt32.toNat_mul, Nat.mod_eq_of_lt (Nat.lt_of_le_of_lt hprod (by decide)),
        hcount, Nat.mul_comm]
    have hne : entries.flatMap bytes ≠ [] := by
      refine List.ne_nil_of_length_pos ?_
      rw [hlength, ← hcount]
      exact Nat.mul_pos hbounds.1 (Nat.pos_of_ne_zero fun h => hpos (UInt32.toNat_inj.1 h))
    obtain ⟨place, hplace, hstores⟩ := (h hne).2.locate_eq hsize
    rw [hplace]
    exact Fault.expect_eq_ok_iff.2 (hcount ▸ records?_of_stores hread hwidth hstores)

/-- Words that an image holds are read from their address. -/
theorem readWords_of_holdsRow {count : UInt32} {words : List UInt32}
    (hcount : count.toNat = words.length) (hmax : words.length ≤ maxExports)
    (h : image.HoldsRow b rva (wordBytes words)) : readWords b image rva count = .ok words :=
  row_of_holdsRow (fun _ _ => u32?_of_stores) (fun w => length_ofWord 4 w.toNat) (by decide)
    hcount hmax h

/-- Half words that an image holds are read from their address. -/
theorem readHalfWords_of_holdsRow {count : UInt32} {words : List UInt16}
    (hcount : count.toNat = words.length) (hmax : words.length ≤ maxExports)
    (h : image.HoldsRow b rva (halfWordBytes words)) :
    readHalfWords b image rva count = .ok words :=
  row_of_holdsRow (fun _ _ => u16?_of_stores) (fun w => length_ofWord 2 w.toNat) (by decide)
    hcount hmax h

/-! ### Slots and names -/

/-- A slot is stored in a directory by the address in it, which is zero if the slot is empty, that
of a text in the directory if the slot is forwarded, and one outside the directory otherwise. -/
inductive ExportTarget.StoredAt (b : Bytes) (image : Image) (d : DataDirectory) :
    UInt32 → ExportTarget → Prop
  | empty : StoredAt b image d 0 .empty
  | code {rva : UInt32} : rva ≠ 0 → d.contains rva = false → StoredAt b image d rva (.code rva)
  | forwarder {rva : UInt32} {symbol : String} : d.contains rva = true →
      image.HoldsText b rva symbol 32767 → StoredAt b image d rva (.forwarder symbol)

/-- A name is stored by the address of its text. Its slot is one of so many. -/
structure ExportName.StoredAt (b : Bytes) (image : Image) (slots : Nat) (rva : UInt32)
    (name : ExportName) : Prop where
  text : image.HoldsText b rva name.name 32767
  slot : name.slot.toNat < slots

/-- What is stored for a slot is read from it. -/
theorem readTarget_of_storedAt {d : DataDirectory} {target : ExportTarget}
    (h : ExportTarget.StoredAt b image d rva target) : readTarget b image d rva = ⟨target, []⟩ := by
  cases h with
  | empty => rfl
  | code hrva houtside => rw [readTarget, if_neg hrva, if_neg (by simp [houtside])]
  | forwarder hinside htext =>
    rw [readTarget, if_neg htext.address, if_pos hinside, readAscii_of_holdsText (by decide) htext]

/-- A name that is stored is read. -/
theorem readName_of_storedAt {slots : Nat} {name : ExportName}
    (h : name.StoredAt b image slots rva) :
    readName b image slots rva name.slot = ⟨some name, []⟩ := by
  rw [readName, if_neg (Nat.not_le_of_lt h.slot), readAscii_of_holdsText (by decide) h.text]

/-- The slots of an address table that is stored are read. -/
theorem map_readTarget_eq {d : DataDirectory} {words : List UInt32} {targets : List ExportTarget}
    (h : List.Forall₂ (ExportTarget.StoredAt b image d) words targets) :
    words.map (readTarget b image d) = targets.map fun target => ⟨target, []⟩ := by
  induction h with
  | nil => rfl
  | cons hfirst _ ih => rw [List.map_cons, List.map_cons, readTarget_of_storedAt hfirst, ih]

/-- So are the names. -/
theorem map_readName_eq {slots : Nat} {pointers : List UInt32} {names : List ExportName}
    (h : List.Forall₂ (ExportName.StoredAt b image slots) pointers names) :
    (pointers.zip (names.map (·.slot))).map (fun e => readName b image slots e.1 e.2) =
      names.map fun name => ⟨some name, []⟩ := by
  induction h with
  | nil => rfl
  | cons hfirst _ ih =>
    rw [List.map_cons, List.zip_cons_cons, List.map_cons, List.map_cons,
      readName_of_storedAt hfirst, ih]

/-- Names that are stored are printable. -/
theorem isPrintable_of_storedAt {slots : Nat} {pointers : List UInt32} {names : List ExportName}
    (h : List.Forall₂ (ExportName.StoredAt b image slots) pointers names) :
    ∀ name ∈ names, IsPrintable name.name := by
  induction h with
  | nil => exact nofun
  | cons hfirst _ ih => exact List.forall_mem_cons.2 ⟨hfirst.text.printable, ih⟩

/-! ### Export tables -/

/-- An export directory describes a table of slots and a table of names, and tells the name of the
DLL if it has one. -/
structure ExportRecord.Describes (b : Bytes) (image : Image) (d : DataDirectory) (r : ExportRecord)
    (dllName : Option String) (targets : List ExportTarget) (names : List ExportName) : Prop where
  nameHeld : dllName.elim (r.name = 0) fun name => image.HoldsText b r.name name 255
  addressCount : r.addressCount.toNat = targets.length
  addressesHeld : ∃ words, List.Forall₂ (ExportTarget.StoredAt b image d) words targets ∧
    image.HoldsRow b r.addressTable (wordBytes words)
  nameCount : r.nameCount.toNat = names.length
  namesHeld : ∃ pointers,
    List.Forall₂ (ExportName.StoredAt b image targets.length) pointers names ∧
      image.HoldsRow b r.nameTable (wordBytes pointers)
  ordinalsHeld : image.HoldsRow b r.ordinalTable (halfWordBytes (names.map (·.slot)))

/-- An export table is stored: the name of the DLL if it has one, the ordinal of the first slot, the
slots, and the names. -/
structure Image.HoldsExports (image : Image) (b : Bytes) (dllName : Option String) (base : UInt32)
    (targets : List ExportTarget) (names : List ExportName) : Prop where
  slotCount : targets.length ≤ 65536
  nameCount : names.length ≤ 65536
  ordinals : base.toNat + targets.length ≤ 4294967296
  directory : ∃ (d : DataDirectory) (r : ExportRecord), image.directory? 0 = some d ∧
    image.Holds b d.address r.bytes ∧ r.ordinalBase = base ∧
    r.Describes b image d dllName targets names

namespace ExportRecord.Describes

variable {d : DataDirectory} {r : ExportRecord} {dllName : Option String}
  {targets : List ExportTarget} {names : List ExportName}

/-- The name that an export directory describes is read. -/
theorem dllName_eq (h : r.Describes b image d dllName targets names) :
    r.dllName b image = ⟨dllName, []⟩ := by
  have hname := h.nameHeld
  rw [ExportRecord.dllName]
  cases dllName with
  | none =>
    rw [Option.elim_none] at hname
    rw [if_pos hname]
  | some name =>
    rw [Option.elim_some] at hname
    rw [if_neg hname.address, readAscii_of_holdsText (by decide) hname]

/-- The counts of the directory are accepted. -/
theorem fault?_eq_none (h : r.Describes b image d dllName targets names)
    (hslots : targets.length ≤ 65536) (hnames : names.length ≤ 65536)
    (hordinals : r.ordinalBase.toNat + targets.length ≤ 4294967296) : r.fault? = none := by
  have haddress : ¬(r.addressCount ≠ 0 ∧ r.addressTable = 0) := by
    rintro ⟨hcount, htable⟩
    obtain ⟨words, hwords, hheld⟩ := h.addressesHeld
    have hpos : 0 < r.addressCount.toNat :=
      Nat.pos_of_ne_zero fun hzero => hcount (UInt32.toNat_inj.1 hzero)
    refine (hheld (List.ne_nil_of_length_pos ?_)).1 htable
    rw [length_wordBytes, hwords.length_eq, ← h.addressCount]
    omega
  rw [ExportRecord.fault?, h.addressCount, h.nameCount, if_neg, if_neg, if_neg haddress]
  · exact Nat.not_lt_of_le hordinals
  · exact not_or.2 ⟨Nat.not_lt_of_le hslots, Nat.not_lt_of_le hnames⟩

/-- The names of the directory are read. -/
theorem readNames_eq (h : r.Describes b image d dllName targets names)
    (hnames : names.length ≤ 65536) :
    r.readNames b image targets.length = ⟨names, []⟩ := by
  obtain ⟨pointers, hpointers, hheld⟩ := h.namesHeld
  have hlength := hpointers.length_eq
  rw [ExportRecord.readNames,
    readWords_of_holdsRow (hlength ▸ h.nameCount) (hlength ▸ hnames) hheld,
    readHalfWords_of_holdsRow (by rw [List.length_map, h.nameCount])
      (by rwa [List.length_map]) h.ordinalsHeld]
  simp only [map_readName_eq hpointers]
  simp [List.filterMap_map, List.flatMap_map]

end ExportRecord.Describes

/-- The exports that are stored in an image are read, and without a fault. Their names are said to
ascend exactly when their bytes do. -/
theorem readExports_of_holdsExports {dllName : Option String} {base : UInt32}
    {targets : List ExportTarget} {names : List ExportName}
    (h : image.HoldsExports b dllName base targets names) :
    ∃ sorted, readExports b image =
        ⟨some ⟨dllName, base, targets.toArray, names.toArray, sorted⟩, []⟩ ∧
      (sorted = true ↔
        names.Pairwise fun name name' => textBytes name.name ≤ textBytes name'.name) := by
  obtain ⟨d, r, hd, hheld, rfl, hr⟩ := h.directory
  have hsize : (UInt32.ofNat ExportRecord.size).toNat = r.bytes.length := by
    rw [ExportRecord.length_bytes]
    rfl
  obtain ⟨place, hplace, hstores⟩ := hheld.locate_eq hsize
  have hrecord : readExportRecord b image d = .ok r :=
    Image.readExportRecord_eq_ok_iff.2 ⟨place, hplace, ExportRecord.read?_of_stores hstores,
      hr.fault?_eq_none h.slotCount h.nameCount h.ordinals⟩
  obtain ⟨words, hwords, haddresses⟩ := hr.addressesHeld
  have hread : readWords b image r.addressTable r.addressCount = .ok words :=
    readWords_of_holdsRow (hwords.length_eq ▸ hr.addressCount) (hwords.length_eq ▸ h.slotCount)
      haddresses
  obtain ⟨pointers, hpointers, -⟩ := hr.namesHeld
  refine ⟨namesAscend names, ?_, namesAscend_iff (isPrintable_of_storedAt hpointers)⟩
  rw [readExports_eq hd hrecord hread, hwords.length_eq, hr.readNames_eq h.nameCount, hr.dllName_eq,
    map_readTarget_eq hwords]
  simp [List.flatMap_map, Function.comp_def]

/-- An export directory with room for the texts of forwarders. -/
def exportingDirectory : DataDirectory := ⟨4096, 74⟩

/-- The export directory of a DLL with three slots and two names. -/
def exportingRecord : ExportRecord :=
  ⟨0, 0, 0, 0, 4160, 7, 3, 2, 4136, 4148, 4156⟩

/-- A file that exports a symbol of its own and one of another DLL, both by name, and has a slot for
a third one. -/
def exportingFile : Bytes :=
  fileOf false [exportingDirectory] 78
    (exportingRecord.bytes ++ wordBytes [4200, 4166, 0] ++ wordBytes [4170, 4172] ++
      halfWordBytes [1, 0] ++ textBytes "A.dll" ++ [0] ++ textBytes "B.f" ++ [0] ++
      textBytes "f" ++ [0] ++ textBytes "g" ++ [0])

/-- The image of that file. -/
def exportingImage : Image :=
  imageOf false [exportingDirectory] 78 78

/-- All exports of that file are read. -/
theorem readExports_exportingFile :
    Image.parse exportingFile = .ok exportingImage ∧
      readExports exportingFile exportingImage =
        ⟨some ⟨some "A.dll", 7, #[.code 4200, .forwarder "B.f", .empty], #[⟨"f", 1⟩, ⟨"g", 0⟩],
          true⟩, []⟩ := by
  have hname : exportingImage.HoldsText exportingFile 4160 "A.dll" 255 :=
    ⟨by decide, by decide, by decide, by decide +kernel⟩
  have hforwarder : exportingImage.HoldsText exportingFile 4166 "B.f" 32767 :=
    ⟨by decide, by decide, by decide, by decide +kernel⟩
  have hfirst : exportingImage.HoldsText exportingFile 4170 "f" 32767 :=
    ⟨by decide, by decide, by decide, by decide +kernel⟩
  have hsecond : exportingImage.HoldsText exportingFile 4172 "g" 32767 :=
    ⟨by decide, by decide, by decide, by decide +kernel⟩
  have hdescribes : exportingRecord.Describes exportingFile exportingImage exportingDirectory
      (some "A.dll") [.code 4200, .forwarder "B.f", .empty] [⟨"f", 1⟩, ⟨"g", 0⟩] := {
    nameHeld := hname
    addressCount := rfl
    addressesHeld := ⟨[4200, 4166, 0],
      .cons (.code (by decide) rfl) (.cons (.forwarder rfl hforwarder) (.cons .empty .nil)),
      fun _ => ⟨by decide, by decide +kernel⟩⟩
    nameCount := rfl
    namesHeld := ⟨[4170, 4172],
      .cons ⟨hfirst, by decide⟩ (.cons ⟨hsecond, by decide⟩ .nil),
      fun _ => ⟨by decide, by decide +kernel⟩⟩
    ordinalsHeld := fun _ => ⟨by decide, by decide +kernel⟩ }
  have hexports : exportingImage.HoldsExports exportingFile (some "A.dll") 7
      [.code 4200, .forwarder "B.f", .empty] [⟨"f", 1⟩, ⟨"g", 0⟩] :=
    ⟨by decide, by decide, by decide, exportingDirectory, exportingRecord, by decide,
      by decide +kernel, rfl, hdescribes⟩
  obtain ⟨sorted, hread, hsorted⟩ := readExports_of_holdsExports hexports
  obtain rfl : sorted = true := hsorted.2 (by decide)
  exact ⟨Fault.eq_ok_of_toOption (by decide +kernel), hread⟩

end DllGraph
