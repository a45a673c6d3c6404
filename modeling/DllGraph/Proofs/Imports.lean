import DllGraph.Graph.Node
import DllGraph.Proofs.Image.Text
import DllGraph.Text.Lowercase
import Mathlib.Order.Basic

/-!
# Imported Names

What the names in an import table can be. They are read as printable ASCII, so their lowercase
forms are what the letters `A` to `Z` make them, and a name and its lowercase form are looked up
alike. There are fewer of them than the file has bytes, since every one takes a record of the file.

## Main definitions

* `Text.IsAscii`, the texts that imported names are.

## Main results

* `Text.lowercase_lowercase` and `Text.asciiLowercase_lowercase` — an ASCII text in lower case
  stays as it is, by either mapping;
* `isAscii_of_mem_importedDlls` — the DLLs that a module imports from have ASCII names;
* `length_importedDlls_le` — a module imports from fewer DLLs than its file has bytes.
-/

namespace DllGraph

/-! ### ASCII texts -/

namespace Text

/-- All characters are ASCII. -/
def IsAscii (s : String) : Prop :=
  ∀ c ∈ s.toList, c.toNat < 0x80

/-- What holds of the first characters by number holds of every ASCII character. -/
theorem forall_ascii {P : Char → Prop} (h : ∀ n < 0x80, P (Char.ofNat n)) {c : Char}
    (hc : c.toNat < 0x80) : P c := by
  have hchar := h c.toNat hc
  rwa [Char.ofNat_toNat] at hchar

/-- The lowercase form of an ASCII character is one. -/
theorem toNat_toLower_lt {c : Char} (h : c.toNat < 0x80) : c.toLower.toNat < 0x80 :=
  forall_ascii (P := fun c => c.toLower.toNat < 0x80) (by decide) h

/-- Lowercasing an ASCII character twice is lowercasing it once. -/
theorem toLower_toLower {c : Char} (h : c.toNat < 0x80) : c.toLower.toLower = c.toLower :=
  forall_ascii (P := fun c => c.toLower.toLower = c.toLower) (by decide) h

/-- Among ASCII characters, each is lowercased by itself. -/
theorem lowercaseFrom_of_ascii {before cs : List Char} (h : ∀ c ∈ cs, c.toNat < 0x80) :
    lowercaseFrom before cs = cs.map Char.toLower := by
  induction cs generalizing before with
  | nil => rfl
  | cons c rest ih =>
    have hc : c.toNat < 0x80 := h c (List.mem_cons_self ..)
    have hsigma : c ≠ 'Σ' := by
      rintro rfl
      exact absurd hc (by decide)
    rw [lowercaseFrom, if_neg hsigma, lowercaseChar, if_pos hc,
      ih fun d hd => h d (List.mem_cons_of_mem _ hd)]
    rfl

/-- On ASCII, the full lowercase mapping is the one of the letters `A` to `Z`. -/
theorem lowercase_of_isAscii {s : String} (h : IsAscii s) : lowercase s = asciiLowercase s := by
  rw [lowercase, lowercaseFrom_of_ascii h, asciiLowercase]

/-- The lowercase form of an ASCII text is one. -/
theorem isAscii_asciiLowercase {s : String} (h : IsAscii s) : IsAscii (asciiLowercase s) := by
  intro c hc
  rw [asciiLowercase, String.toList_ofList] at hc
  obtain ⟨d, hd, rfl⟩ := List.mem_map.1 hc
  exact toNat_toLower_lt (h d hd)

/-- Lowercasing an ASCII text twice is lowercasing it once. -/
theorem asciiLowercase_asciiLowercase {s : String} (h : IsAscii s) :
    asciiLowercase (asciiLowercase s) = asciiLowercase s := by
  have hmap : (s.toList.map Char.toLower).map Char.toLower = s.toList.map Char.toLower := by
    rw [List.map_map]
    exact List.map_congr_left fun c hc => toLower_toLower (h c hc)
  rw [asciiLowercase, asciiLowercase, String.toList_ofList, hmap]

/-- On ASCII texts, lowercasing before or after does not matter. -/
theorem asciiLowercase_lowercase {s : String} (h : IsAscii s) :
    asciiLowercase (lowercase s) = asciiLowercase s := by
  rw [lowercase_of_isAscii h, asciiLowercase_asciiLowercase h]

/-- A lowercase ASCII text stays as it is. -/
theorem lowercase_lowercase {s : String} (h : IsAscii s) :
    lowercase (lowercase s) = lowercase s := by
  rw [lowercase_of_isAscii h, lowercase_of_isAscii (isAscii_asciiLowercase h),
    asciiLowercase_asciiLowercase h]

end Text

/-! ### The names of an import table -/

/-- A text that is read is printable, so it is ASCII. -/
theorem isAscii_of_readAscii {b : Bytes} {image : Image} {rva : UInt32} {maxLength : Nat}
    {name : String} (h : readAscii b image rva maxLength = .ok name) : Text.IsAscii name := by
  obtain ⟨-, place, -, hname⟩ := readAscii_eq_ok_iff.1 h
  have hprintable : IsPrintable name := (readAsciiAt_eq_ok_iff.1 hname).1
  exact fun c hc => Nat.lt_of_le_of_lt (hprintable c hc).2 (by decide)

/-- A DLL that is read has an ASCII name if the names that can be read are ASCII. -/
theorem isAscii_of_readDll {b : Bytes} {image : Image} {delayLoad : Bool} {base : UInt64}
    {name : Except Fault String} {table : Except Fault (List LookupEntry)} {dll : ImportedDll}
    (hname : ∀ text, name = .ok text → Text.IsAscii text)
    (h : (readDll b image delayLoad base name table).value = some dll) :
    Text.IsAscii dll.name := by
  simp only [readDll] at h
  split at h
  · cases h
  · next text =>
    cases h
    exact hname text rfl

/-- The name in an import record is ASCII if it can be read. -/
theorem ImportRecord.isAscii_of_dllName {r : ImportRecord} {b : Bytes} {image : Image}
    {name : String} (h : r.dllName b image = .ok name) : Text.IsAscii name :=
  isAscii_of_readAscii h

/-- The name in a delay-load record is ASCII if it can be read. -/
theorem DelayRecord.isAscii_of_dllName {r : DelayRecord} {b : Bytes} {image : Image}
    {name : String} (h : r.dllName b image = .ok name) : Text.IsAscii name := by
  simp only [dllName] at h
  cases hrva : toRva r.name.toUInt64 (r.base image) with
  | error fault =>
    rw [hrva] at h
    cases h
  | ok rva =>
    rw [hrva] at h
    exact isAscii_of_readAscii h

/-- Whatever can be said of the DLL of every record can be said of all DLLs of a directory. -/
theorem forall_mem_readDlls {α : Type} {read : α → Nat → Salvaged (Option ImportedDll)}
    {table : Except Fault (Option (DirectoryTable α))} {P : ImportedDll → Prop}
    (h : ∀ record index dll, (read record index).value = some dll → P dll) :
    ∀ dll ∈ (readDlls read table).value, P dll := by
  intro dll hdll
  simp only [readDlls] at hdll
  split at hdll
  · cases hdll
  · cases hdll
  · obtain ⟨result, hresult, hvalue⟩ := List.mem_filterMap.1 hdll
    obtain ⟨record, -, rfl⟩ := List.mem_map.1 hresult
    exact h record _ dll hvalue

/-- All imported DLLs have ASCII names. -/
theorem isAscii_of_mem_readImports {b : Bytes} {image : Image} :
    ∀ dll ∈ (readImports b image).value.dlls, Text.IsAscii dll.name := by
  intro dll hdll
  rcases List.mem_append.1 hdll with hdll | hdll
  · exact forall_mem_readDlls (P := fun dll => Text.IsAscii dll.name) (fun record index dll h =>
      isAscii_of_readDll (fun _ => ImportRecord.isAscii_of_dllName) h) dll hdll
  · exact forall_mem_readDlls (P := fun dll => Text.IsAscii dll.name) (fun record index dll h =>
      isAscii_of_readDll (fun _ => DelayRecord.isAscii_of_dllName) h) dll hdll

/-! ### The number of imports -/

/-- A table with a sentinel lies in the file, and so does its sentinel. -/
theorem size_sentinelTable_le {α : Type} {b : Bytes} {read? : Nat → Option α} {isNull : α → Bool}
    {width : Nat} (hread : ∀ offset entry, read? offset = some entry → offset + width ≤ b.size)
    {offset cap : Nat} {entries : List α}
    (h : sentinelTable? read? isNull width offset cap = some entries) :
    offset + width * entries.length ≤ b.size := by
  induction cap generalizing offset entries with
  | zero => cases h
  | succ cap ih =>
    simp only [sentinelTable?] at h
    split at h
    · cases h
    · next entry hentry =>
      have hroom : offset + width ≤ b.size := hread offset entry hentry
      split at h
      · cases h
        rw [List.length_nil, Nat.mul_zero]
        omega
      · obtain ⟨rest, hrest, rfl⟩ := Option.map_eq_some_iff.1 h
        have hle : offset + width + width * rest.length ≤ b.size := ih hrest
        rw [List.length_cons, Nat.mul_succ]
        omega

/-- A word that can be read lies within the file. -/
theorem le_size_of_u32? {b : Bytes} {offset : Nat} {word : UInt32}
    (h : b.u32? offset = some word) : offset + 4 ≤ b.size := by
  obtain ⟨value, hvalue, -⟩ := Option.map_eq_some_iff.1 h
  have hsome : (Bytes.word? b offset 4).isSome := by rw [hvalue]; rfl
  exact (Bytes.word?_isSome_iff.1 hsome).resolve_left (by decide)

/-- An import record that can be read lies within the file. -/
theorem ImportRecord.le_size_of_read? {b : Bytes} {offset : Nat} {r : ImportRecord}
    (h : read? b offset = some r) : offset + size ≤ b.size := by
  simp only [read?, Option.bind_eq_bind, Option.bind_eq_some_iff] at h
  obtain ⟨-, -, -, -, -, -, -, -, last, hlast, -⟩ := h
  have hle : offset + 16 + 4 ≤ b.size := le_size_of_u32? hlast
  exact hle

/-- A delay-load record that can be read lies within the file. -/
theorem DelayRecord.le_size_of_read? {b : Bytes} {offset : Nat} {r : DelayRecord}
    (h : read? b offset = some r) : offset + size ≤ b.size := by
  simp only [read?, Option.bind_eq_bind, Option.bind_eq_some_iff] at h
  obtain ⟨-, -, -, -, -, -, -, -, -, -, -, -, -, -, last, hlast, -⟩ := h
  have hle : offset + 28 + 4 ≤ b.size := le_size_of_u32? hlast
  exact hle

/-- The records of the DLLs that are read fit into the file, one after the other. -/
theorem length_readDlls_le {α : Type} {b : Bytes} {image : Image} {slot width : Nat}
    {kind : TableKind} {read? : Nat → Option α} {isNull : α → Bool}
    {read : α → Nat → Salvaged (Option ImportedDll)}
    (hread : ∀ offset entry, read? offset = some entry → offset + width ≤ b.size) :
    width * (readDlls read (directoryTable image slot kind read? isNull width)).value.length ≤
      b.size := by
  simp only [readDlls]
  split
  · simp
  · simp
  · next table htable =>
    have hentries : width * table.entries.length ≤ b.size := by
      rw [directoryTable] at htable
      split at htable
      · cases htable
      · split at htable
        · cases htable
        · split at htable
          · cases htable
          · next entries hentries =>
            cases htable
            exact Nat.le_trans (Nat.le_add_left ..) (size_sentinelTable_le hread hentries)
    have hlength : ((table.entries.map (read · table.index)).filterMap (·.value)).length ≤
        table.entries.length := by
      simpa using List.length_filterMap_le (·.value) (table.entries.map (read · table.index))
    exact Nat.le_trans (Nat.mul_le_mul_left width hlength) hentries

/-- An image imports from fewer DLLs than its file has bytes. -/
theorem length_readImports_le {b : Bytes} {image : Image} :
    (readImports b image).value.dlls.length ≤ b.size := by
  have hdirect : 20 * (readDlls (ImportRecord.readDll · b image)
      (importDirectory b image)).value.length ≤ b.size :=
    length_readDlls_le fun _ _ => ImportRecord.le_size_of_read?
  have hdelayed : 32 * (readDlls (DelayRecord.readDll · b image)
      (delayDirectory b image)).value.length ≤ b.size :=
    length_readDlls_le fun _ _ => DelayRecord.le_size_of_read?
  simp only [readImports, List.length_append]
  omega

/-! ### The imports of a module -/

namespace Node

/-- The DLLs that the bytes of a file import from. -/
def dllsOf (b : Bytes) : List ImportedDll :=
  match Image.parse b with
  | .error _ => []
  | .ok image => (readImports b image).value.dlls

/-- What a module imports is what its file says. -/
theorem importedDlls_read {t : FileTree} {n : Node} {path : Path} (hpath : n.path = some path)
    (hn : n.imports = none) :
    (n.read t).importedDlls = ((t.load path).toOption.map dllsOf).getD [] := by
  rw [read]
  rw [hpath]
  dsimp only
  cases t.load path with
  | error e => simp [importedDlls, hn, Except.toOption]
  | ok b =>
    simp only [Except.toOption, Option.map_some, Option.getD_some, withContent, dllsOf]
    cases Image.parse b with
    | error fault => simp [importedDlls, hn]
    | ok image => simp [importedDlls]

end Node

/-- All DLLs that a file imports from have ASCII names. -/
theorem isAscii_of_mem_dllsOf {b : Bytes} : ∀ dll ∈ Node.dllsOf b, Text.IsAscii dll.name := by
  intro dll hdll
  rw [Node.dllsOf] at hdll
  split at hdll
  · cases hdll
  · exact isAscii_of_mem_readImports dll hdll

/-- A file imports from no more DLLs than it has bytes. -/
theorem length_dllsOf_le {b : Bytes} : (Node.dllsOf b).length ≤ b.size := by
  rw [Node.dllsOf]
  split
  · exact Nat.zero_le _
  · exact length_readImports_le

end DllGraph
