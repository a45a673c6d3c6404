import DllGraph.Proofs.FileTree
import DllGraph.Proofs.Imports
import DllGraph.SearchPath.Cache

/-!
# Lookups That Remember

A lookup keeps what it reads, and the next one goes by what has been kept. This module proves that
this does not show: whatever has been looked up before, a name is found where it would have been
found at first. For a search path that does not ask which module imports the name, a name is even
found at the same place for all importers, and under all of its casings.

Two caches agree when every folder has the same files by either of them, be it that they were kept
or that they would be read now. One remembers another if it keeps what the other one keeps. Whoever
asks for a name again, at any later time, gets the answer that was given before, and nothing is read
for it.

## Main definitions

* `SearchCache.Agrees`, caches by which every folder has the same files;
* `SearchCache.Remembers`, caches that keep what others keep;
* `SearchPath.IgnoresImporter`, search paths that do not ask which module imports a name.

## Main results

* `SearchPath.agrees_search` — a lookup leaves a cache that agrees with the one it started from;
* `SearchPath.search_congr` — caches that agree find the same file;
* `SearchPath.search_lowercase` — a name is found where its lowercase form is found;
* `SearchPath.remembers_search` and `SearchPath.search_of_remembers` — nothing is forgotten, and a
  lookup that is repeated gives the same answer.
-/

namespace DllGraph

/-! ### Results that are kept -/

/-- Keeping a result does not change what any path gives. -/
theorem Memo.fst_get_get {α : Type} {m : Memo α} {compute : Path → α}
    (h : ∀ p q : Path, p.components = q.components → compute p = compute q) (p q : Path) :
    ((m.get compute p).2.get compute q).1 = (m.get compute q).1 := by
  cases hp : m.lookup p.components with
  | some a => simp only [get, hp]
  | none =>
    simp only [get, hp, List.lookup_cons]
    by_cases heq : q.components = p.components
    · rw [heq, beq_self_eq_true, hp]
      exact h p q heq.symm
    · rw [beq_eq_false_iff_ne.2 heq]
      dsimp only
      cases m.lookup q.components <;> rfl

/-- Whatever is kept among some results is kept among others. -/
def Memo.Remembers {α : Type} (m' m : Memo α) : Prop :=
  ∀ {key : List Path.Component} {a : α}, m.lookup key = some a → m'.lookup key = some a

namespace Memo

variable {α : Type} {m m' : Memo α} {compute compute' : Path → α} {p : Path}

/-- What has been computed for a path is remembered under its components. -/
theorem lookup_get : (m.get compute p).2.lookup p.components = some (m.get compute p).1 := by
  cases h : m.lookup p.components with
  | some a => simp only [get, h]
  | none => simp only [get, h, List.lookup_cons_self]

/-- Computing something forgets nothing. -/
theorem remembers_get : (m.get compute p).2.Remembers m := by
  intro key a ha
  cases h : m.lookup p.components with
  | some b => simpa only [get, h] using ha
  | none =>
    simp only [get, h, List.lookup_cons]
    have hne : key ≠ p.components := by
      rintro rfl
      rw [h] at ha
      cases ha
    rw [beq_eq_false_iff_ne.2 hne]
    exact ha

/-- What has been got once is got again, from any results that remember it, whatever would be
computed now. -/
theorem get_of_remembers (h : m'.Remembers (m.get compute p).2) :
    m'.get compute' p = ((m.get compute p).1, m') := by
  have hkept : m'.lookup p.components = some (m.get compute p).1 := h lookup_get
  rw [get, hkept]

end Memo

/-- The listing of a folder depends on its components only. -/
theorem Listing.ofFolder_congr {t : FileTree} {p q : Path} (h : p.components = q.components) :
    ofFolder t p = ofFolder t q := by
  rw [ofFolder, ofFolder, FileTree.listFiles_congr h]

namespace SearchCache

variable {t t' : FileTree} {c c' c'' : SearchCache} {folder importer : Path} {name : String}

/-- The files of a folder as a lookup sees them: those that have been kept, or else those that are
there now. -/
def listing (c : SearchCache) (t : FileTree) (folder : Path) : Listing :=
  (c.listings.get (Listing.ofFolder t) folder).1

/-- By either cache, every folder has the same files. -/
def Agrees (t : FileTree) (c c' : SearchCache) : Prop :=
  ∀ folder, c.listing t folder = c'.listing t folder

/-- A cache agrees with itself. -/
theorem Agrees.refl (c : SearchCache) : c.Agrees t c :=
  fun _ => rfl

/-- Agreement of caches goes both ways. -/
theorem Agrees.symm (h : c.Agrees t c') : c'.Agrees t c :=
  fun folder => (h folder).symm

/-- Agreement of caches can be chained. -/
theorem Agrees.trans (h : c.Agrees t c') (h' : c'.Agrees t c'') : c.Agrees t c'' :=
  fun folder => (h folder).trans (h' folder)

/-- Looking into a folder does not change what a cache would answer. -/
theorem agrees_findInFolder? : (c.findInFolder? t folder name).2.Agrees t c :=
  fun other => Memo.fst_get_get (fun _ _ => Listing.ofFolder_congr) folder other

/-- Looking for a redirection does not change what a cache would answer. -/
theorem agrees_findRedirected? : (c.findRedirected? t importer name).2.Agrees t c :=
  fun _ => rfl

/-- Whatever one cache keeps, the other one keeps as well. -/
structure Remembers (c' c : SearchCache) : Prop where
  listings : c'.listings.Remembers c.listings
  redirections : c'.redirections.Remembers c.redirections

/-- A cache remembers what it remembers. -/
theorem Remembers.refl (c : SearchCache) : c.Remembers c :=
  ⟨id, id⟩

/-- What is remembered by what is remembered is remembered. -/
theorem Remembers.trans (h : c''.Remembers c') (h' : c'.Remembers c) : c''.Remembers c :=
  ⟨fun ha => h.listings (h'.listings ha), fun ha => h.redirections (h'.redirections ha)⟩

/-- Looking into a folder forgets nothing. -/
theorem remembers_findInFolder? : (c.findInFolder? t folder name).2.Remembers c :=
  ⟨Memo.remembers_get, id⟩

/-- Looking for a redirection forgets nothing. -/
theorem remembers_findRedirected? : (c.findRedirected? t importer name).2.Remembers c :=
  ⟨id, Memo.remembers_get⟩

/-- Once a folder has been looked into, what was found is found again in any tree, and nothing is
read. -/
theorem findInFolder?_of_remembers (h : c'.Remembers (c.findInFolder? t folder name).2) :
    c'.findInFolder? t' folder name = ((c.findInFolder? t folder name).1, c') := by
  simp only [findInFolder?, Memo.get_of_remembers h.listings]

/-- Once a redirection has been looked for, what was found is found again in any tree, and nothing
is read. -/
theorem findRedirected?_of_remembers (h : c'.Remembers (c.findRedirected? t importer name).2) :
    c'.findRedirected? t' importer name = ((c.findRedirected? t importer name).1, c') := by
  simp only [findRedirected?, Memo.get_of_remembers h.redirections]

end SearchCache

/-! ### Lookups -/

namespace SearchPath

variable {s : SearchPath} {t t' : FileTree} {c c' : SearchCache} {name name' : String}
  {importer importer' : Path} {entry : SearchEntry} {entries : List SearchEntry}

/-- What reading a folder and what reading a manifest does to a cache, an entry does. -/
theorem searchAt_preserves {r : SearchCache → SearchCache → Prop} (hrefl : ∀ c, r c c)
    (hfolder : ∀ folder c, r (SearchCache.findInFolder? c t folder name).2 c)
    (hmanifest : ∀ c, r (SearchCache.findRedirected? c t importer name).2 c) :
    r (s.searchAt t name importer c entry).2 c := by
  cases entry with
  | sideBySide => exact hmanifest c
  | knownDlls => exact hrefl c
  | executableDir =>
    simp only [searchAt]
    cases importer.parent? with
    | some folder => exact hfolder folder c
    | none => exact hrefl c
  | systemDir | system16Dir | windowsDir | workingDir | systemPath | userPath =>
    exact hfolder _ c

/-- What every entry does to a cache, a lookup does. -/
theorem searchFrom_preserves {r : SearchCache → SearchCache → Prop} (hrefl : ∀ c, r c c)
    (htrans : ∀ {c c' c''}, r c c' → r c' c'' → r c c'')
    (hentry : ∀ c entry, r (s.searchAt t name importer c entry).2 c) :
    r (s.searchFrom t name importer entries c).2 c := by
  induction entries generalizing c with
  | nil => exact hrefl c
  | cons entry rest ih =>
    have hfirst := hentry c entry
    rw [searchFrom]
    split
    · next path c' heq =>
      rw [heq] at hfirst
      exact hfirst
    · next c' heq =>
      rw [heq] at hfirst
      exact htrans ih hfirst

/-- A search at one entry does not change what a cache would answer. -/
theorem agrees_searchAt : (s.searchAt t name importer c entry).2.Agrees t c :=
  searchAt_preserves (r := SearchCache.Agrees t) .refl
    (fun _ _ => SearchCache.agrees_findInFolder?) (fun _ => SearchCache.agrees_findRedirected?)

/-- A lookup leaves a cache that agrees with the one it started from. -/
theorem agrees_search (s : SearchPath) (t : FileTree) (name : String) (importer : Path)
    (c : SearchCache) : (s.search t name importer c).2.Agrees t c :=
  searchFrom_preserves (r := SearchCache.Agrees t) .refl .trans fun _ _ => agrees_searchAt

/-- No entry of the search path depends on the module that imports a DLL. -/
def IgnoresImporter (s : SearchPath) : Prop :=
  SearchEntry.sideBySide ∉ s.entries ∧ SearchEntry.executableDir ∉ s.entries

/-- Names that differ in case only are the same known DLL. -/
theorem lookup?_congr {k : KnownDlls} (h : Text.asciiLowercase name = Text.asciiLowercase name') :
    k.lookup? name = k.lookup? name' := by
  simp only [KnownDlls.lookup?, KnownDlls.position?, h]

/-- Caches that agree find the same file in a folder, for names that differ in case only. -/
theorem findInFolder?_congr {folder : Path} (hc : c.Agrees t c')
    (h : Text.lowercase name = Text.lowercase name') :
    (c.findInFolder? t folder name).1 = (c'.findInFolder? t folder name').1 := by
  have hlisting : (c.listings.get (Listing.ofFolder t) folder).1 =
      (c'.listings.get (Listing.ofFolder t) folder).1 := hc folder
  simp only [SearchCache.findInFolder?, Listing.find?, hlisting, h]

/-- At an entry that does not depend on the importing module, searches agree for names that differ
in case only. -/
theorem searchAt_congr (hc : c.Agrees t c') (hlower : Text.lowercase name = Text.lowercase name')
    (hascii : Text.asciiLowercase name = Text.asciiLowercase name')
    (hside : entry ≠ .sideBySide) (hexecutable : entry ≠ .executableDir) :
    (s.searchAt t name importer c entry).1 = (s.searchAt t name' importer' c' entry).1 := by
  cases entry with
  | sideBySide => exact absurd rfl hside
  | executableDir => exact absurd rfl hexecutable
  | knownDlls =>
    have hlookup : ∀ k : KnownDlls, k.lookup? name = k.lookup? name' := fun k =>
      lookup?_congr hascii
    simp only [searchAt, hlookup]
  | systemDir | system16Dir | windowsDir | workingDir | systemPath | userPath =>
    exact findInFolder?_congr hc hlower

/-- Along entries that do not depend on the importing module, searches agree for names that differ
in case only. -/
theorem searchFrom_congr (hc : c.Agrees t c')
    (hlower : Text.lowercase name = Text.lowercase name')
    (hascii : Text.asciiLowercase name = Text.asciiLowercase name')
    (hside : .sideBySide ∉ entries) (hexecutable : .executableDir ∉ entries) :
    (s.searchFrom t name importer entries c).1 = (s.searchFrom t name' importer' entries c').1 := by
  induction entries generalizing c c' with
  | nil => rfl
  | cons entry rest ih =>
    rw [List.mem_cons, not_or] at hside hexecutable
    have hentry : (s.searchAt t name importer c entry).1 =
        (s.searchAt t name' importer' c' entry).1 :=
      searchAt_congr hc hlower hascii (Ne.symm hside.1) (Ne.symm hexecutable.1)
    have hleft : (s.searchAt t name importer c entry).2.Agrees t c := agrees_searchAt
    have hright : (s.searchAt t name' importer' c' entry).2.Agrees t c' := agrees_searchAt
    simp only [searchFrom]
    generalize s.searchAt t name importer c entry = found at hentry hleft
    generalize s.searchAt t name' importer' c' entry = found' at hentry hright
    obtain ⟨path, d⟩ := found
    obtain ⟨path', d'⟩ := found'
    cases hentry
    cases path with
    | some path => rfl
    | none => exact ih ((hleft.trans hc).trans hright.symm) hside.2 hexecutable.2

/-- A search path that ignores importers finds the same file for all importers, by all caches that
agree, and for all names that have the same lowercase forms. -/
theorem search_congr (hs : s.IgnoresImporter) (hc : c.Agrees t c')
    (hlower : Text.lowercase name = Text.lowercase name')
    (hascii : Text.asciiLowercase name = Text.asciiLowercase name') :
    (s.search t name importer c).1 = (s.search t name' importer' c').1 :=
  searchFrom_congr hc hlower hascii hs.1 hs.2

/-- A search path that ignores importers finds an ASCII name where it finds its lowercase form. -/
theorem search_lowercase (hs : s.IgnoresImporter) (hc : c.Agrees t c') (hname : Text.IsAscii name) :
    (s.search t name importer c).1 = (s.search t (Text.lowercase name) importer' c').1 :=
  search_congr hs hc (Text.lowercase_lowercase hname).symm
    (Text.asciiLowercase_lowercase hname).symm

/-- An entry that does not ask which module imports a name finds a text inside a folder. -/
theorem exists_child_of_searchAt {path : Path} (hside : entry ≠ .sideBySide)
    (hexecutable : entry ≠ .executableDir)
    (h : (s.searchAt t name importer c entry).1 = some path) :
    ∃ (dir : Path) (file : String), path = dir.child file := by
  have hfolder : ∀ folder, (c.findInFolder? t folder name).1 = some path →
      ∃ (dir : Path) (file : String), path = dir.child file := by
    intro folder hfind
    obtain ⟨file, -, heq⟩ := Option.map_eq_some_iff.1 hfind
    exact ⟨folder, file, heq.symm⟩
  cases entry with
  | sideBySide => exact absurd rfl hside
  | executableDir => exact absurd rfl hexecutable
  | knownDlls =>
    obtain ⟨k, -, hlookup⟩ := Option.bind_eq_some_iff.1 h
    simp only [KnownDlls.lookup?, Option.bind_eq_bind, Option.bind_eq_some_iff,
      Option.some.injEq] at hlookup
    obtain ⟨i, -, file, -, heq⟩ := hlookup
    exact ⟨k.directory, file, heq.symm⟩
  | systemDir | system16Dir | windowsDir | workingDir | systemPath | userPath => exact hfolder _ h

/-- What is found along entries that do not depend on the importing module is a text inside a
folder. -/
theorem exists_child_of_searchFrom {hit : Hit} (hside : .sideBySide ∉ entries)
    (hexecutable : .executableDir ∉ entries)
    (h : (s.searchFrom t name importer entries c).1 = some hit) :
    ∃ (dir : Path) (file : String), hit.path = dir.child file := by
  induction entries generalizing c with
  | nil => cases h
  | cons entry rest ih =>
    rw [List.mem_cons, not_or] at hside hexecutable
    rw [searchFrom] at h
    split at h
    · next path c' heq =>
      cases h
      exact exists_child_of_searchAt (Ne.symm hside.1) (Ne.symm hexecutable.1)
        (congrArg Prod.fst heq)
    · exact ih hside.2 hexecutable.2 h

/-- What a search path that ignores importers finds is a text inside a folder. -/
theorem exists_child_of_search (hs : s.IgnoresImporter) {hit : Hit}
    (h : (s.search t name importer c).1 = some hit) :
    ∃ (dir : Path) (file : String), hit.path = dir.child file :=
  exists_child_of_searchFrom hs.1 hs.2 h

/-! ### Repeated lookups -/

/-- A search at one entry forgets nothing. -/
theorem remembers_searchAt : (s.searchAt t name importer c entry).2.Remembers c :=
  searchAt_preserves (r := SearchCache.Remembers) .refl
    (fun _ _ => SearchCache.remembers_findInFolder?)
    (fun _ => SearchCache.remembers_findRedirected?)

/-- A search along entries forgets nothing. -/
theorem remembers_searchFrom : (s.searchFrom t name importer entries c).2.Remembers c :=
  searchFrom_preserves (r := SearchCache.Remembers) .refl .trans fun _ _ => remembers_searchAt

/-- A search at one entry is answered from memory the second time. -/
theorem searchAt_of_remembers (h : c'.Remembers (s.searchAt t name importer c entry).2) :
    s.searchAt t' name importer c' entry = ((s.searchAt t name importer c entry).1, c') := by
  cases entry with
  | sideBySide => exact SearchCache.findRedirected?_of_remembers h
  | knownDlls => rfl
  | executableDir =>
    simp only [searchAt] at h ⊢
    cases hparent : importer.parent? with
    | some folder =>
      rw [hparent] at h
      exact SearchCache.findInFolder?_of_remembers h
    | none => rfl
  | systemDir | system16Dir | windowsDir | workingDir | systemPath | userPath =>
    exact SearchCache.findInFolder?_of_remembers h

/-- A search along entries is answered from memory the second time. -/
theorem searchFrom_of_remembers (h : c'.Remembers (s.searchFrom t name importer entries c).2) :
    s.searchFrom t' name importer entries c' =
      ((s.searchFrom t name importer entries c).1, c') := by
  induction entries generalizing c with
  | nil => rfl
  | cons entry rest ih =>
    rw [searchFrom] at h
    rw [searchFrom, searchFrom]
    rcases hentry : s.searchAt t name importer c entry with ⟨_ | path, c₁⟩
    · rw [hentry] at h
      -- What this entry has read is remembered by the end of the lookup, hence by the later one.
      have hkept : c'.Remembers (s.searchAt t name importer c entry).2 := by
        rw [hentry]
        exact h.trans remembers_searchFrom
      rw [searchAt_of_remembers hkept, hentry]
      exact ih h
    · rw [hentry] at h
      have hkept : c'.Remembers (s.searchAt t name importer c entry).2 := by
        rw [hentry]
        exact h
      rw [searchAt_of_remembers hkept, hentry]

/-- A lookup forgets nothing. -/
theorem remembers_search (s : SearchPath) (t : FileTree) (name : String) (importer : Path)
    (c : SearchCache) : (s.search t name importer c).2.Remembers c :=
  remembers_searchFrom

/-- A lookup that is repeated gives the same answer, and has nothing left to read, whatever has
become of the files by then. -/
theorem search_of_remembers (h : c'.Remembers (s.search t name importer c).2) :
    s.search t' name importer c' = ((s.search t name importer c).1, c') :=
  searchFrom_of_remembers h

end SearchPath

end DllGraph
