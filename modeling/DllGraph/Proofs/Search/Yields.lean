import DllGraph.SearchPath.Cache

/-!
# What a Search Path Finds

An entry of a search path yields a file for a DLL or it does not, and the first entry that yields
one decides. This module says what each kind of entry yields without a word on how it is looked for:
the entry of a folder yields the file of that folder whose name is the name of the DLL but for case,
and the entry for manifests yields what the manifest of the importing module declares, which is
nothing if the manifest is not there, cannot be read or is malformed.

If no two files of one directory differ only in case, an entry yields one file at most, and what is
found is determined.

## Main definitions

* `FileTree.HasFile`, the files that lie in a folder, and `FileTree.Matches`, those of them that
  have a given name but for case;
* `FileTree.IsCaseUnique`, that no two files of one directory differ only in case;
* `SearchPath.Yields`, what an entry yields;
* `SearchPath.IsFirstHit`, what the first entry that yields anything yields.

## Main results

* `SearchPath.find?_eq_some_iff` and `SearchPath.find?_eq_none_iff` — what is found is the first
  hit, and nothing is found if and only if no entry yields anything.
-/

namespace DllGraph

/-! ### The files of a folder -/

namespace FileTree

variable {t : FileTree} {folder path path' : Path} {name file : String}

/-- A file of a given name lies in the directory that a path leads to. -/
def HasFile (t : FileTree) (folder : Path) (file : String) : Prop :=
  ∃ dir content, t.find folder = .ok dir ∧ t.at? dir = some .directory ∧
    (dir ++ [(file : RawText)], Entry.file content) ∈ t.entries

/-- No two files of one directory differ only in case. -/
def IsCaseUnique (t : FileTree) : Prop :=
  ∀ folder file file', t.HasFile folder file → t.HasFile folder file' →
    Text.lowercase file = Text.lowercase file' → file = file'

/-- A file in a folder that has a given name, without regard to case. -/
def Matches (t : FileTree) (folder : Path) (name : String) (path : Path) : Prop :=
  ∃ file, t.HasFile folder file ∧ Text.lowercase file = Text.lowercase name ∧
    path = folder.child file

/-- If no two files differ only in case, a name matches one file of a folder at most. -/
theorem IsCaseUnique.matches_unique (ht : t.IsCaseUnique) (h : t.Matches folder name path)
    (h' : t.Matches folder name path') : path = path' := by
  obtain ⟨file, hfile, hname, rfl⟩ := h
  obtain ⟨file', hfile', hname', rfl⟩ := h'
  rw [ht folder file file' hfile hfile' (hname.trans hname'.symm)]

/-- It is enough that no two places of one directory differ only in case, where two names that are
no texts count as the same. -/
theorem isCaseUnique_of_places
    (h : ∀ place ∈ t.entries.map Prod.fst, ∀ place' ∈ t.entries.map Prod.fst,
      place.dropLast = place'.dropLast →
      (place.getLast?.bind RawText.text?).map Text.lowercase =
        (place'.getLast?.bind RawText.text?).map Text.lowercase → place = place') :
    t.IsCaseUnique := by
  rintro folder file file' ⟨dir, content, hdir, -, hmem⟩ ⟨dir', content', hdir', -, hmem'⟩ hname
  rw [hdir] at hdir'
  cases hdir'
  have hplace := h _ (List.mem_map_of_mem hmem) _ (List.mem_map_of_mem hmem')
    (by rw [List.dropLast_concat, List.dropLast_concat])
    (by simp [hname])
  simpa using hplace

/-- An entry has a name in a directory if and only if it is a file there, and the name is a text. -/
theorem fileNameIn?_eq_some_iff {dir : Place} {e : Place × Entry} :
    fileNameIn? dir e = some file ↔ ∃ content, e = (dir ++ [(file : RawText)], .file content) := by
  obtain ⟨place, entry⟩ := e
  cases entry with
  | directory => simp [fileNameIn?]
  | file content =>
    simp only [fileNameIn?, Prod.mk.injEq, Entry.file.injEq]
    constructor
    · intro h
      split at h
      · next hdir =>
        obtain ⟨raw, hlast, htext⟩ := Option.bind_eq_some_iff.1 h
        obtain rfl := RawText.text?_eq_some_iff.1 htext
        obtain ⟨above, rfl⟩ := List.getLast?_eq_some_iff.1 hlast
        rw [List.dropLast_concat] at hdir
        exact ⟨content, by rw [hdir], rfl⟩
      · cases h
    · rintro ⟨_, rfl, -⟩
      simp

/-- What is listed of a folder is the files that lie in it. -/
theorem mem_listFiles_iff : file ∈ (t.listFiles folder).getD [] ↔ t.HasFile folder file := by
  simp only [listFiles, HasFile]
  cases t.find folder with
  | error cause => simp
  | ok dir =>
    dsimp only
    split
    · next hat =>
      simp only [Option.getD_some, List.mem_filterMap, fileNameIn?_eq_some_iff]
      constructor
      · rintro ⟨_, he, content, rfl⟩
        exact ⟨dir, content, rfl, hat, he⟩
      · rintro ⟨_, content, heq, -, he⟩
        cases heq
        exact ⟨_, he, content, rfl⟩
    · next hat =>
      simp only [Option.getD_none, List.not_mem_nil, false_iff]
      rintro ⟨_, _, heq, hdir, -⟩
      cases heq
      exact hat hdir

end FileTree

/-- What is found in a listing is a name of it that is the same but for case, and a name that is
there is found. -/
theorem Listing.lookup_ofNames {names : List String} {key file : String}
    (h : (ofNames names).lookup key = some file) : file ∈ names ∧ Text.lowercase file = key := by
  obtain ⟨before, after, hnames, -⟩ := List.lookup_eq_some_iff.1 h
  have hmem : (key, file) ∈ ofNames names := by
    rw [hnames]
    simp
  obtain ⟨file', hfile, heq⟩ := List.mem_map.1 hmem
  cases heq
  exact ⟨hfile, rfl⟩

/-- Nothing is listed under a key if and only if no name has this lowercase form. -/
theorem Listing.lookup_ofNames_eq_none_iff {names : List String} {key : String} :
    (ofNames names).lookup key = none ↔ ∀ file ∈ names, Text.lowercase file ≠ key := by
  rw [List.lookup_eq_none_iff, ofNames, List.forall_mem_map]
  exact forall₂_congr fun file _ => bne_iff_ne.trans ne_comm

section Folder

variable {t : FileTree} {folder path : Path} {name : String}

/-- What is found in a folder is a file of the folder with the name, but for case. -/
theorem matches_of_findInFolder? (h : findInFolder? t folder name = some path) :
    t.Matches folder name path := by
  obtain ⟨file, hlookup, rfl⟩ := Option.map_eq_some_iff.1 h
  obtain ⟨hmem, hname⟩ := Listing.lookup_ofNames hlookup
  exact ⟨file, FileTree.mem_listFiles_iff.1 hmem, hname, rfl⟩

/-- Nothing is found in a folder if and only if no file of it has the name, but for case. -/
theorem findInFolder?_eq_none_iff :
    findInFolder? t folder name = none ↔ ∀ path, ¬ t.Matches folder name path := by
  rw [findInFolder?, Listing.find?, Option.map_eq_none_iff, Listing.ofFolder,
    Listing.lookup_ofNames_eq_none_iff]
  constructor
  · rintro h path ⟨file, hfile, hname, -⟩
    exact h file (FileTree.mem_listFiles_iff.2 hfile) hname
  · intro h file hmem hname
    exact h _ ⟨file, FileTree.mem_listFiles_iff.1 hmem, hname, rfl⟩

end Folder

/-! ### Manifests -/

namespace Redirections

/-- The manifest next to a module is a readable, well-formed file, and redirects a name to a
path. -/
def Redirects (t : FileTree) (importer : Path) (name : String) (path : Path) : Prop :=
  ∃ manifest dir text r, sidecar? importer = some manifest ∧ importer.parent? = some dir ∧
    t.isFile manifest = true ∧ t.readText manifest = .ok text ∧
    ofText Xml.parse? t text dir = .ok r ∧ r.find? name = some path

/-- A name is redirected to a path if and only if a manifest next to the module says so. -/
theorem find?_redirectionsOf_eq_some_iff {t : FileTree} {importer path : Path} {name : String} :
    (redirectionsOf t importer).find? name = some path ↔ Redirects t importer name path := by
  have hempty : empty.find? name = none := rfl
  rw [redirectionsOf, ofBinary]
  constructor
  · intro h
    split at h
    · next r hr =>
      split at hr
      · next manifest dir hmanifest hdir =>
        split at hr
        · next hfile =>
          split at hr
          · cases hr
          · next text htext => exact ⟨manifest, dir, text, r, hmanifest, hdir, hfile, htext, hr, h⟩
        · cases hr
          cases hempty ▸ h
      · cases hr
        cases hempty ▸ h
    · cases hempty ▸ h
  · rintro ⟨manifest, dir, text, r, hmanifest, hdir, hfile, htext, hr, h⟩
    simp only [hmanifest, hdir, hfile, htext, hr, if_true]
    exact h

end Redirections

/-! ### Entries -/

namespace SearchPath

/-- What an entry yields for a DLL that a module imports. -/
inductive Yields (s : SearchPath) (t : FileTree) (name : String) (importer : Path) :
    SearchEntry → Path → Prop
  /-- The file that the manifest of the module declares. -/
  | redirected {path} (h : Redirections.Redirects t importer name path) :
    Yields s t name importer .sideBySide path
  /-- The path of a known DLL. -/
  | known {k path} (hk : s.knownDlls = some k) (h : k.lookup? name = some path) :
    Yields s t name importer .knownDlls path
  /-- A file next to the module. -/
  | besideImporter {dir path} (hdir : importer.parent? = some dir)
    (h : t.Matches dir name path) : Yields s t name importer .executableDir path
  /-- A file in the folder of the entry. -/
  | inFolder {entry folder path} (hfolder : entry.folder? = some folder)
    (h : t.Matches folder name path) : Yields s t name importer entry path

variable {s : SearchPath} {t : FileTree} {name : String} {importer path path' : Path}
  {entry : SearchEntry} {hit : Hit}

/-- What is found at an entry is something that the entry yields. -/
theorem yields_of_findAt? (h : s.findAt? t name importer entry = some path) :
    s.Yields t name importer entry path := by
  cases entry with
  | sideBySide => exact .redirected (Redirections.find?_redirectionsOf_eq_some_iff.1 h)
  | knownDlls =>
    obtain ⟨k, hk, hlookup⟩ := Option.bind_eq_some_iff.1 h
    exact .known hk hlookup
  | executableDir =>
    obtain ⟨dir, hdir, hfind⟩ := Option.bind_eq_some_iff.1 h
    exact .besideImporter hdir (matches_of_findInFolder? hfind)
  | systemDir | system16Dir | windowsDir | workingDir | systemPath | userPath =>
    exact .inFolder rfl (matches_of_findInFolder? h)

/-- An entry finds something if it yields something. -/
theorem findAt?_ne_none (h : s.Yields t name importer entry path) :
    s.findAt? t name importer entry ≠ none := by
  cases h with
  | redirected h =>
    rw [findAt?, Redirections.find?_redirectionsOf_eq_some_iff.2 h]
    exact Option.some_ne_none _
  | known hk hlookup =>
    rw [findAt?, hk, Option.bind_some, hlookup]
    exact Option.some_ne_none _
  | besideImporter hdir hmatch =>
    rw [findAt?, hdir, Option.bind_some]
    exact fun hnone => findInFolder?_eq_none_iff.1 hnone _ hmatch
  | inFolder hfolder hmatch =>
    intro hnone
    cases entry <;> cases hfolder
    all_goals exact findInFolder?_eq_none_iff.1 hnone _ hmatch

/-- Nothing is found at an entry if and only if it yields nothing. -/
theorem findAt?_eq_none_iff :
    s.findAt? t name importer entry = none ↔ ∀ path, ¬ s.Yields t name importer entry path := by
  constructor
  · exact fun hnone path h => findAt?_ne_none h hnone
  · intro h
    cases hfind : s.findAt? t name importer entry with
    | none => rfl
    | some path => exact absurd (yields_of_findAt? hfind) (h path)

/-- If no two files differ only in case, an entry yields one path at most. -/
theorem Yields.unique (ht : t.IsCaseUnique) (h : s.Yields t name importer entry path)
    (h' : s.Yields t name importer entry path') : path = path' := by
  cases h with
  | redirected h =>
    cases h' with
    | redirected h' =>
      rw [← Redirections.find?_redirectionsOf_eq_some_iff] at h h'
      rw [h, Option.some.injEq] at h'
      exact h'
    | inFolder hfolder => cases hfolder
  | known hk hlookup =>
    cases h' with
    | known hk' hlookup' =>
      rw [hk] at hk'
      cases hk'
      rw [hlookup, Option.some.injEq] at hlookup'
      exact hlookup'
    | inFolder hfolder => cases hfolder
  | besideImporter hdir hmatch =>
    cases h' with
    | besideImporter hdir' hmatch' =>
      rw [hdir] at hdir'
      cases hdir'
      exact ht.matches_unique hmatch hmatch'
    | inFolder hfolder => cases hfolder
  | inFolder hfolder hmatch =>
    cases h' with
    | inFolder hfolder' hmatch' =>
      rw [hfolder] at hfolder'
      cases hfolder'
      exact ht.matches_unique hmatch hmatch'
    | redirected | known | besideImporter => cases hfolder

/-- Unless names differ in case only, an entry finds all that it yields. -/
theorem findAt?_eq_some_iff (ht : t.IsCaseUnique) :
    s.findAt? t name importer entry = some path ↔ s.Yields t name importer entry path := by
  refine ⟨yields_of_findAt?, fun h => ?_⟩
  obtain ⟨path', hfind⟩ := Option.ne_none_iff_exists'.1 (findAt?_ne_none h)
  rw [hfind, h.unique ht (yields_of_findAt? hfind)]

/-! ### The first hit -/

/-- What the first entry that yields a file yields. -/
def IsFirstHit (s : SearchPath) (t : FileTree) (name : String) (importer : Path) (hit : Hit) :
    Prop :=
  ∃ before after, s.entries = before ++ hit.location :: after ∧
    s.Yields t name importer hit.location hit.path ∧
    ∀ entry ∈ before, ∀ path, ¬ s.Yields t name importer entry path

/-- The first hit is at one of the entries. -/
theorem IsFirstHit.mem_entries (h : s.IsFirstHit t name importer hit) :
    hit.location ∈ s.entries := by
  obtain ⟨before, after, hentries, -, -⟩ := h
  rw [hentries]
  simp

/-- The first hit is what its entry yields. -/
theorem IsFirstHit.yields (h : s.IsFirstHit t name importer hit) :
    s.Yields t name importer hit.location hit.path := by
  obtain ⟨-, -, -, hyields, -⟩ := h
  exact hyields

/-- Whatever is found is a first hit. -/
theorem isFirstHit_of_find? (h : s.find? t name importer = some hit) :
    s.IsFirstHit t name importer hit := by
  rw [find?, List.findSome?_eq_some_iff] at h
  obtain ⟨before, entry, after, hentries, hentry, hbefore⟩ := h
  obtain ⟨path, hpath, rfl⟩ := Option.map_eq_some_iff.1 hentry
  exact ⟨before, after, hentries, yields_of_findAt? hpath, fun other hother =>
    findAt?_eq_none_iff.1 (Option.map_eq_none_iff.1 (hbefore other hother))⟩

/-- If no two files differ only in case, what is found is the first hit. -/
theorem find?_eq_some_iff (ht : t.IsCaseUnique) :
    s.find? t name importer = some hit ↔ s.IsFirstHit t name importer hit := by
  refine ⟨isFirstHit_of_find?, ?_⟩
  rintro ⟨before, after, hentries, hyields, hbefore⟩
  rw [find?, List.findSome?_eq_some_iff]
  refine ⟨before, hit.location, after, hentries, ?_, fun other hother => ?_⟩
  · rw [(findAt?_eq_some_iff ht).2 hyields]
    rfl
  · rw [findAt?_eq_none_iff.2 (hbefore other hother)]
    rfl

/-- Nothing is found if and only if no entry yields anything. -/
theorem find?_eq_none_iff : s.find? t name importer = none ↔
    ∀ entry ∈ s.entries, ∀ path, ¬ s.Yields t name importer entry path := by
  simp only [find?, List.findSome?_eq_none_iff, Option.map_eq_none_iff, findAt?_eq_none_iff]

end SearchPath

end DllGraph
