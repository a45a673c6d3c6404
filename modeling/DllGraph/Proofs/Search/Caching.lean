import DllGraph.Proofs.Lookup
import DllGraph.Proofs.Search.Redirections
import DllGraph.Proofs.Search.Yields

/-!
# Lookups One After Another

Lookups that share a cache read each folder and each manifest once. This module proves that nobody
can tell: as long as the files stay as they are, a lookup finds through which entry, and where, it
would find a DLL without a cache, and that is the first hit. Only the spelling of a path may be that
of an earlier lookup, for a module that was given under another spelling.

The invariant is on what is kept. Whatever is kept for a path is what would be read for it now, and
that goes for folders that cannot be listed and for manifests that cannot be read as well: they keep
an empty listing and no redirections, under their own paths.

## Main definitions

* `SearchCache.IsOf`, that what a cache keeps is what a file tree has;
* `Hit.Alike`, hits that are the same up to the spelling of the path;
* `SearchPath.searchAll`, lookups one after another.

## Main results

* `SearchPath.fst_search_empty` — without a cache, a lookup finds what `SearchPath.find?` finds;
* `SearchPath.rel_search` — and with one that is of the file tree, it finds the same up to spelling;
* `SearchPath.searchAll_finds_firstHit` — lookups one after another find the first hits, and what
  they have read answers for them ever after.
-/

namespace DllGraph

/-! ### What is kept -/

/-- Whatever is kept for a path, under any spelling, is what is computed for it, up to `r`. -/
def Memo.IsOf {α : Type} (r : α → α → Prop) (compute : Path → α) (m : Memo α) : Prop :=
  ∀ (p : Path) (a : α), m.lookup p.components = some a → r a (compute p)

namespace Memo

variable {α : Type} {r : α → α → Prop} {compute : Path → α} {m : Memo α}

/-- A memory of nothing is one of any computation. -/
theorem isOf_nil : Memo.IsOf r compute [] := by
  intro p a h
  cases h

/-- What is kept for another path is of that path, as what is computed depends on components. -/
theorem IsOf.get (h : m.IsOf r compute)
    (hcongr : ∀ {p q : Path}, p.components = q.components → r (compute p) (compute q)) (p : Path) :
    (m.get compute p).2.IsOf r compute := by
  intro q a ha
  cases hkept : m.lookup p.components with
  | some b =>
    simp only [Memo.get, hkept] at ha
    exact h q a ha
  | none =>
    simp only [Memo.get, hkept, List.lookup_cons] at ha
    split at ha
    · next hkey =>
      cases ha
      exact hcongr (beq_iff_eq.1 hkey).symm
    · exact h q a ha

/-- What a memory of a computation answers is what would be computed, for a related path. -/
theorem IsOf.rel (h : m.IsOf r compute) (hrefl : ∀ a, r a a) (p : Path) :
    r (m.get compute p).1 (compute p) := by
  cases hkept : m.lookup p.components with
  | some a =>
    simp only [Memo.get, hkept]
    exact h p a hkept
  | none =>
    simp only [Memo.get, hkept]
    exact hrefl (compute p)

end Memo

namespace SearchCache

variable {t : FileTree} {c : SearchCache} {folder importer : Path} {name : String}

/-- What a cache keeps is what a file tree has: each folder its own files, and each module its own
redirections. A folder that cannot be listed has no files, and a manifest that cannot be read, or is
malformed, has no redirections. -/
structure IsOf (t : FileTree) (c : SearchCache) : Prop where
  listings : c.listings.IsOf Eq (Listing.ofFolder t)
  redirections : c.redirections.IsOf Redirections.Alike (redirectionsOf t)

/-- A cache that remembers nothing is one of any tree. -/
theorem isOf_empty (t : FileTree) : empty.IsOf t :=
  ⟨Memo.isOf_nil, Memo.isOf_nil⟩

/-- Looking into a folder of a tree leaves a cache of the tree. -/
theorem IsOf.findInFolder? (h : c.IsOf t) (folder : Path) :
    (c.findInFolder? t folder name).2.IsOf t :=
  ⟨h.listings.get Listing.ofFolder_congr folder, h.redirections⟩

/-- Looking for a redirection in a tree leaves a cache of the tree. -/
theorem IsOf.findRedirected? (h : c.IsOf t) : (c.findRedirected? t importer name).2.IsOf t :=
  ⟨h.listings, h.redirections.get Redirections.alike_redirectionsOf importer⟩

/-- By a cache, a module finds what it finds in a file tree, if paths count up to `r`. -/
structure Serves (r : Path → Path → Prop) (t : FileTree) (importer : Path) (c : SearchCache) :
    Prop where
  listings : c.listings.IsOf Eq (Listing.ofFolder t)
  redirected : ∀ name, Option.Rel r (c.findRedirected? t importer name).1
    ((redirectionsOf t importer).find? name)

variable {r : Path → Path → Prop}

/-- With a cache that serves a module, a folder is looked into as without one. -/
theorem Serves.fst_findInFolder? (h : c.Serves r t importer) (folder : Path) :
    (c.findInFolder? t folder name).1 = DllGraph.findInFolder? t folder name := by
  have hlisting : (c.listings.get (Listing.ofFolder t) folder).1 = Listing.ofFolder t folder :=
    h.listings.rel (fun _ => rfl) folder
  rw [SearchCache.findInFolder?, DllGraph.findInFolder?, ← hlisting]

/-- A cache that serves a module still does after a folder has been looked into. -/
theorem Serves.findInFolder? (h : c.Serves r t importer) (folder : Path) :
    (c.findInFolder? t folder name).2.Serves r t importer :=
  ⟨h.listings.get Listing.ofFolder_congr folder, h.redirected⟩

/-- A cache that serves a module still does after a redirection has been looked for. -/
theorem Serves.findRedirected? (h : c.Serves r t importer) :
    (c.findRedirected? t importer name).2.Serves r t importer := by
  refine ⟨h.listings, fun other => ?_⟩
  -- All names go by the redirections that have been kept for the first one.
  have hkept : (c.findRedirected? t importer name).2 = (c.findRedirected? t importer other).2 := rfl
  rw [hkept, findRedirected?_of_remembers (Remembers.refl _)]
  exact h.redirected other

end SearchCache

/-! ### Single lookups -/

/-- Hits through the same entry, at paths of the same components. -/
def Hit.Alike (hit hit' : Hit) : Prop :=
  hit.location = hit'.location ∧ hit.path.same hit'.path = true

namespace SearchPath

variable {s : SearchPath} {t : FileTree} {c : SearchCache} {r : Path → Path → Prop}
  {name : String} {importer : Path} {entry : SearchEntry} {entries : List SearchEntry}

/-- A cache that serves a module still does after a search at one entry. -/
theorem serves_searchAt (h : c.Serves r t importer) :
    (s.searchAt t name importer c entry).2.Serves r t importer :=
  searchAt_preserves (r := fun c' c => c.Serves r t importer → c'.Serves r t importer)
    (fun _ h => h) (fun folder _ h => h.findInFolder? folder) (fun _ h => h.findRedirected?) h

/-- With a cache that serves a module, an entry is searched as without one, up to related paths. -/
theorem rel_searchAt (hrefl : ∀ p, r p p) (h : c.Serves r t importer) :
    Option.Rel r (s.searchAt t name importer c entry).1 (s.findAt? t name importer entry) := by
  have hself : ∀ path : Option Path, Option.Rel r path path := fun path => by
    cases path with
    | none => exact .none
    | some p => exact .some (hrefl p)
  cases entry with
  | sideBySide => exact h.redirected name
  | knownDlls => exact hself _
  | executableDir =>
    simp only [searchAt, findAt?]
    cases importer.parent? with
    | none => exact .none
    | some folder =>
      rw [Option.bind_some, ← h.fst_findInFolder? folder]
      exact hself _
  | systemDir folder | system16Dir folder | windowsDir folder | workingDir folder
  | systemPath folder | userPath folder =>
    simp only [searchAt, findAt?]
    rw [← h.fst_findInFolder? folder]
    exact hself _

/-- Whether or not some of the entries have been read already, the first one that yields something
is the same. -/
theorem rel_searchFrom (hrefl : ∀ p, r p p) (h : c.Serves r t importer) :
    Option.Rel (fun hit hit' : Hit => hit.location = hit'.location ∧ r hit.path hit'.path)
      (s.searchFrom t name importer entries c).1
      (entries.findSome? fun entry => (s.findAt? t name importer entry).map (⟨entry, ·⟩)) := by
  induction entries generalizing c with
  | nil => exact .none
  | cons entry rest ih =>
    have hfirst : Option.Rel r (s.searchAt t name importer c entry).1
        (s.findAt? t name importer entry) := rel_searchAt hrefl h
    have hnext : (s.searchAt t name importer c entry).2.Serves r t importer := serves_searchAt h
    rw [searchFrom, List.findSome?_cons]
    generalize s.searchAt t name importer c entry = found at hfirst hnext ⊢
    generalize s.findAt? t name importer entry = path' at hfirst ⊢
    obtain ⟨path, c'⟩ := found
    cases hfirst with
    | some hpath => exact .some ⟨rfl, hpath⟩
    | none => exact ih hnext

/-- A lookup that has nothing to go by reads what it needs. -/
theorem fst_search_empty (s : SearchPath) (t : FileTree) (name : String) (importer : Path) :
    (s.search t name importer .empty).1 = s.find? t name importer := by
  have hserves : SearchCache.empty.Serves Eq t importer := by
    refine ⟨Memo.isOf_nil, fun other => ?_⟩
    have hread : (SearchCache.empty.findRedirected? t importer other).1 =
        (redirectionsOf t importer).find? other := rfl
    rw [hread]
    cases (redirectionsOf t importer).find? other with
    | none => exact .none
    | some path => exact .some rfl
  have hrel : Option.Rel (fun hit hit' : Hit => hit.location = hit'.location ∧ hit.path = hit'.path)
      (s.search t name importer .empty).1 (s.find? t name importer) :=
    rel_searchFrom (fun _ => rfl) hserves
  generalize (s.search t name importer .empty).1 = found at hrel ⊢
  generalize s.find? t name importer = found' at hrel ⊢
  cases hrel with
  | none => rfl
  | @some hit hit' h =>
    obtain ⟨location, path⟩ := hit
    obtain ⟨rfl, rfl⟩ := h
    rfl

/-- A lookup finds what it would find without the cache, up to the spelling of the path. -/
theorem rel_search (h : c.IsOf t) (s : SearchPath) (name : String) (importer : Path) :
    Option.Rel Hit.Alike (s.search t name importer c).1 (s.search t name importer .empty).1 := by
  rw [fst_search_empty]
  refine rel_searchFrom (r := fun p q => p.same q = true) (fun p => beq_self_eq_true p.components)
    ⟨h.listings, fun other => ?_⟩
  have hfind := Redirections.rel_find? (h.redirections.rel Redirections.Alike.refl importer) other
  simpa only [SearchCache.findRedirected?, Path.same, beq_iff_eq] using hfind

/-- A search leaves a cache of the tree. -/
theorem isOf_search (h : c.IsOf t) : (s.search t name importer c).2.IsOf t :=
  searchFrom_preserves (r := fun c' c => c.IsOf t → c'.IsOf t) (fun _ h => h)
    (fun h h' hc => h (h' hc))
    (fun _ _ => searchAt_preserves (r := fun c' c => c.IsOf t → c'.IsOf t) (fun _ h => h)
      (fun folder _ h => h.findInFolder? folder) fun _ h => h.findRedirected?) h

/-! ### Lookups one after another -/

/-- Look up DLLs for modules one after another, each with what has been read by then: what each
lookup finds, and what has been read in the end. -/
def searchAll (s : SearchPath) (t : FileTree) :
    List (String × Path) → SearchCache → List (Option Hit) × SearchCache
  | [], c => ([], c)
  | (name, importer) :: rest, c =>
    let (found, c) := s.search t name importer c
    let (others, c) := s.searchAll t rest c
    (found :: others, c)

variable {calls : List (String × Path)}

/-- Any number of searches forget nothing. -/
theorem remembers_searchAll : (s.searchAll t calls c).2.Remembers c := by
  induction calls generalizing c with
  | nil => exact .refl c
  | cons call rest ih => exact ih.trans (s.remembers_search t call.1 call.2 c)

/-- Any number of searches leave a cache of the tree. -/
theorem isOf_searchAll (h : c.IsOf t) (s : SearchPath) (calls : List (String × Path)) :
    (s.searchAll t calls c).2.IsOf t := by
  induction calls generalizing c with
  | nil => exact h
  | cons call rest ih => exact ih (isOf_search h)

/-- Each of the lookups finds what it would find alone, and would find it again at the end, when it
has nothing left to read: there the files may even have changed. -/
theorem forall₂_searchAll (h : c.IsOf t) :
    List.Forall₂ (fun call found =>
      Option.Rel Hit.Alike found (s.search t call.1 call.2 .empty).1 ∧
        ∀ t', s.search t' call.1 call.2 (s.searchAll t calls c).2 =
          (found, (s.searchAll t calls c).2))
      calls (s.searchAll t calls c).1 := by
  induction calls generalizing c with
  | nil => exact .nil
  | cons call rest ih =>
    refine .cons ⟨rel_search h s call.1 call.2, fun t' => ?_⟩ (ih (isOf_search h))
    have hkept : (s.searchAll t rest (s.search t call.1 call.2 c).2).2.Remembers
        (s.search t call.1 call.2 c).2 := remembers_searchAll
    exact search_of_remembers hkept

/-- Whatever DLLs are looked up for whatever modules, one after another, each lookup finds what it
would find alone, up to the spelling of the path: the first hit, or nothing if and only if no entry
yields anything. What has been read in the end is of the file tree, for each folder and each module
on its own, and it gives the same answers ever after. -/
theorem searchAll_finds_firstHit (ht : t.IsCaseUnique) (s : SearchPath)
    (calls : List (String × Path)) :
    List.Forall₂ (fun call found =>
      Option.Rel Hit.Alike found (s.search t call.1 call.2 .empty).1 ∧
        ∀ t', s.search t' call.1 call.2 (s.searchAll t calls .empty).2 =
          (found, (s.searchAll t calls .empty).2))
      calls (s.searchAll t calls .empty).1 ∧
    (∀ name importer hit, (s.search t name importer .empty).1 = some hit ↔
      s.IsFirstHit t name importer hit) ∧
    (∀ name importer, (s.search t name importer .empty).1 = none ↔
      ∀ entry ∈ s.entries, ∀ path, ¬ s.Yields t name importer entry path) ∧
    (s.searchAll t calls .empty).2.IsOf t := by
  refine ⟨forall₂_searchAll (SearchCache.isOf_empty t), fun name importer hit => ?_,
    fun name importer => ?_, isOf_searchAll (SearchCache.isOf_empty t) s calls⟩
  · rw [fst_search_empty]
    exact find?_eq_some_iff ht
  · rw [fst_search_empty]
    exact find?_eq_none_iff

/-- A program with a malformed manifest, and a DLL next to it. -/
def appTree : FileTree where
  entries := [(["App"], .directory), (["App", "app.exe"], .file .empty),
    (["App", "app.exe.manifest"], .file "<assembly>".toUTF8), (["App", "Helper.dll"], .file .empty)]
  workingDir := []

/-- A search path for it, with a folder that is not there. -/
def appPath : SearchPath where
  entries := [.sideBySide, .userPath ⟨"/Gone"⟩, .executableDir]
  knownDlls := none

/-- No two names of the sample tree differ in case only. -/
theorem isCaseUnique_appTree : appTree.IsCaseUnique :=
  FileTree.isCaseUnique_of_places (by decide +kernel)

/-- The DLL is found next to the program, under both spellings of the path of the program. -/
theorem searchAll_finds_firstHit_app :
    appTree.IsCaseUnique ∧
      ∃ c, appPath.searchAll appTree [("HELPER.dll", ⟨"/App/app.exe"⟩),
          ("gone.dll", ⟨"/App//app.exe"⟩), ("helper.dll", ⟨"/App//app.exe"⟩)] .empty =
        ([some ⟨.executableDir, ⟨"/App/Helper.dll"⟩⟩, none,
          some ⟨.executableDir, ⟨"/App/Helper.dll"⟩⟩], c) ∧
      c.IsOf appTree ∧
      appPath.IsFirstHit appTree "HELPER.dll" ⟨"/App/app.exe"⟩
        ⟨.executableDir, ⟨"/App/Helper.dll"⟩⟩ := by
  obtain ⟨-, hfirst, -, hof⟩ := searchAll_finds_firstHit isCaseUnique_appTree appPath
    [("HELPER.dll", ⟨"/App/app.exe"⟩), ("gone.dll", ⟨"/App//app.exe"⟩),
      ("helper.dll", ⟨"/App//app.exe"⟩)]
  exact ⟨isCaseUnique_appTree, _, Prod.ext (by decide +kernel) rfl, hof,
    (hfirst _ _ _).1 (by decide +kernel)⟩

end SearchPath

end DllGraph
