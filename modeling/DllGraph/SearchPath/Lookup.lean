import DllGraph.Manifest
import DllGraph.SearchPath.Basic

/-!
# Looking Up a DLL

The first entry of the search path that yields a file decides where a DLL is. File names are
compared without regard to case, as Windows does. A folder that cannot be listed holds nothing,
and a manifest that cannot be read redirects nothing.

The lookup of this module reads the file tree anew each time. `SearchPath.Cache` has the one that
remembers what it has read.

## Main definitions

* `findInFolder?`, the file of a folder that has a given name;
* `SearchPath.findAt?`, the file that one entry yields;
* `SearchPath.find?`, the first hit.
-/

namespace DllGraph

/-- The files of a folder, each by its lowercase name. -/
abbrev Listing := List (String × String)

namespace Listing

/-- The listing of some file names. -/
def ofNames (names : List String) : Listing :=
  names.map fun name => (Text.lowercase name, name)

/-- The listing of a folder; one that cannot be read is empty. -/
def ofFolder (t : FileTree) (folder : Path) : Listing :=
  ofNames ((t.listFiles folder).getD [])

/-- The path of the file in a listed folder that has a given name, without regard to case. -/
def find? (listing : Listing) (folder : Path) (name : String) : Option Path :=
  (listing.lookup (Text.lowercase name)).map fun (file : String) => folder.child file

end Listing

/-- The file of a folder that has a given name, without regard to case. -/
def findInFolder? (t : FileTree) (folder : Path) (name : String) : Option Path :=
  (Listing.ofFolder t folder).find? folder name

/-- The redirections that apply to what a module imports; a manifest that cannot be read has
none. -/
def redirectionsOf (t : FileTree) (importer : Path) : Redirections :=
  match Redirections.ofBinary t importer with
  | .ok redirections => redirections
  | .error _ => .empty

namespace SearchPath

/-- The file that an entry yields for a DLL that a module imports. -/
def findAt? (s : SearchPath) (t : FileTree) (name : String) (importer : Path) :
    SearchEntry → Option Path
  | .sideBySide => (redirectionsOf t importer).find? name
  | .knownDlls => s.knownDlls.bind (·.lookup? name)
  | .executableDir => importer.parent?.bind (findInFolder? t · name)
  | .systemDir folder | .system16Dir folder | .windowsDir folder | .workingDir folder
  | .systemPath folder | .userPath folder => findInFolder? t folder name

/-- The file for a DLL that a module imports, found through the first entry that yields one. -/
def find? (s : SearchPath) (t : FileTree) (name : String) (importer : Path) : Option Hit :=
  s.entries.findSome? fun entry => (s.findAt? t name importer entry).map (⟨entry, ·⟩)

end SearchPath

end DllGraph
