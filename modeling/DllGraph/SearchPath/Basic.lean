import DllGraph.Query

/-!
# Search Paths

A search path says where a DLL is looked for, in order. Three of its entries depend on the module
that imports the DLL or on no folder at all; each of the others is a folder in a certain role.
`SearchPath.deduce` gives the standard order for desktop programs, in which only the place of the
working directory depends on the safe DLL search mode.

## Main definitions

* `SearchEntry`, an entry; `Hit`, a file together with the entry that it was found through;
* `SearchPath`, the entries and the known DLLs that one of them may refer to;
* `SearchPath.deduce`, the standard order for a query.
-/

namespace DllGraph

/-- Where to look for a DLL. -/
inductive SearchEntry where
  /-- The redirections in the manifest of the importing module. -/
  | sideBySide
  /-- The DLLs that are mapped from one directory, whatever the other entries say. -/
  | knownDlls
  /-- The directory of the importing module. -/
  | executableDir
  | systemDir (folder : Path)
  | system16Dir (folder : Path)
  | windowsDir (folder : Path)
  | workingDir (folder : Path)
  /-- A folder of the PATH of the installation. -/
  | systemPath (folder : Path)
  /-- A folder that the user has added. -/
  | userPath (folder : Path)
deriving DecidableEq, Inhabited

namespace SearchEntry

/-- Whether what is found through the entry belongs to the operating system. -/
def isSystem : SearchEntry → Bool
  | knownDlls | systemDir _ | system16Dir _ | windowsDir _ => true
  | _ => false

/-- The folder of the entry; some entries depend on the importing module instead. -/
def folder? : SearchEntry → Option Path
  | sideBySide | knownDlls | executableDir => none
  | systemDir folder | system16Dir folder | windowsDir folder | workingDir folder
  | systemPath folder | userPath folder => some folder

end SearchEntry

/-- A file and the entry that it was found through. -/
structure Hit where
  location : SearchEntry
  path : Path
deriving DecidableEq, Inhabited

/-- Where to look for DLLs, in order, and the known DLLs. -/
structure SearchPath where
  entries : List SearchEntry
  knownDlls : Option KnownDlls
deriving DecidableEq, Inhabited

namespace SearchPath

/-- The folders of the search path, in order. -/
def folders (s : SearchPath) : List Path :=
  s.entries.filterMap (·.folder?)

/-- The entries for the PATH of an installation. -/
def systemPathEntries (i : Installation) : List SearchEntry :=
  (i.systemPath.getD []).map .systemPath

/-- The entries for the folders that the user has added. -/
def userPathEntries (q : Query) : List SearchEntry :=
  q.userPath.map .userPath

/-- The entry for the known DLLs, for an installation that has any. -/
def knownDllEntries (i : Installation) : List SearchEntry :=
  if i.knownDlls.isSome then [.knownDlls] else []

/-- The entries for the system directories and the working directory. The safe search mode has the
working directory searched after the system directories, not before them. -/
def directoryEntries (i : Installation) (workingDir : Path) : List SearchEntry :=
  let system : List SearchEntry :=
    [.systemDir i.systemDir, .system16Dir i.system16Dir, .windowsDir i.windowsDir]
  if i.isSafe then system ++ [.workingDir workingDir] else .workingDir workingDir :: system

/-- The entries of the standard search order for desktop programs. -/
def standardEntries (q : Query) : List SearchEntry :=
  match q.installation with
  | some i =>
    .sideBySide :: knownDllEntries i ++ .executableDir :: directoryEntries i q.workingDir ++
      systemPathEntries i ++ userPathEntries q
  | none => .sideBySide :: .executableDir :: .workingDir q.workingDir :: userPathEntries q

/-- The standard search order for desktop programs. -/
def deduce (q : Query) : SearchPath :=
  ⟨standardEntries q, q.knownDlls?⟩

end SearchPath

end DllGraph
