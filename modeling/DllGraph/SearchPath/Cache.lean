import DllGraph.SearchPath.Lookup

/-!
# Looking Up Many DLLs

An analysis looks up thousands of DLLs in a few folders, so what has been read once is kept: the
listing of each folder and the redirections of each importing module. Both are kept by path, and
paths of the same components share what is kept.

What is kept is not read again, even if the file tree has changed since; as long as it has not,
the lookup finds what `SearchPath.find?` finds, up to the spelling of the path.

## Main definitions

* `Memo`, results kept by path;
* `SearchCache`, what has been read of a file tree;
* `SearchPath.search`, the lookup that reads only what has not been read yet.
-/

namespace DllGraph

/-- Results kept by the components of a path. -/
abbrev Memo (α : Type) := List (List Path.Component × α)

namespace Memo

/-- The result for a path, which is computed if there is none yet, and the results kept from now
on. -/
def get {α : Type} (m : Memo α) (compute : Path → α) (p : Path) : α × Memo α :=
  match m.lookup p.components with
  | some a => (a, m)
  | none =>
    let a := compute p
    (a, (p.components, a) :: m)

end Memo

/-- What has been read of a file tree. -/
structure SearchCache where
  listings : Memo Listing
  redirections : Memo Redirections
deriving Inhabited

namespace SearchCache

/-- Nothing has been read. -/
def empty : SearchCache := ⟨[], []⟩

/-- The file of a folder that has a given name, without regard to case. -/
def findInFolder? (c : SearchCache) (t : FileTree) (folder : Path) (name : String) :
    Option Path × SearchCache :=
  let (listing, listings) := c.listings.get (Listing.ofFolder t) folder
  (listing.find? folder name, { c with listings })

/-- The file that the manifest of a module redirects a name to. -/
def findRedirected? (c : SearchCache) (t : FileTree) (importer : Path) (name : String) :
    Option Path × SearchCache :=
  let (r, redirections) := c.redirections.get (redirectionsOf t) importer
  (r.find? name, { c with redirections })

end SearchCache

namespace SearchPath

/-- The file that an entry yields for a DLL that a module imports. -/
def searchAt (s : SearchPath) (t : FileTree) (name : String) (importer : Path) (c : SearchCache) :
    SearchEntry → Option Path × SearchCache
  | .sideBySide => c.findRedirected? t importer name
  | .knownDlls => (s.knownDlls.bind (·.lookup? name), c)
  | .executableDir =>
    match importer.parent? with
    | some folder => c.findInFolder? t folder name
    | none => (none, c)
  | .systemDir folder | .system16Dir folder | .windowsDir folder | .workingDir folder
  | .systemPath folder | .userPath folder => c.findInFolder? t folder name

/-- The first hit among some entries for a DLL that a module imports. -/
def searchFrom (s : SearchPath) (t : FileTree) (name : String) (importer : Path) :
    List SearchEntry → SearchCache → Option Hit × SearchCache
  | [], c => (none, c)
  | entry :: rest, c =>
    match s.searchAt t name importer c entry with
    | (some path, c) => (some ⟨entry, path⟩, c)
    | (none, c) => s.searchFrom t name importer rest c

/-- The file for a DLL that a module imports, found through the first entry that yields one, and
what has been read by then. -/
def search (s : SearchPath) (t : FileTree) (name : String) (importer : Path) (c : SearchCache) :
    Option Hit × SearchCache :=
  s.searchFrom t name importer s.entries c

end SearchPath

end DllGraph
