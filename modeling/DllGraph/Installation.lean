import DllGraph.KnownDlls

/-!
# Windows Installations

What a lookup needs to know about the Windows installation that a program would run on: its three
system directories, its known DLLs, its PATH, and whether its safe DLL search mode is on. An
installation is recognised by its directory `Windows/System32`. Neither its PATH nor its search
mode can be told from its files, and its known DLLs are assumed to be those of a stock one.
-/

namespace DllGraph

/-- A Windows installation. -/
structure Installation where
  /-- Whether the safe DLL search mode is on, if that is known. -/
  safeSearch : Option Bool
  knownDlls : Option KnownDlls
  windowsDir : Path
  systemDir : Path
  /-- The 16-bit system directory. -/
  system16Dir : Path
  systemPath : Option (List Path)
deriving DecidableEq, Inhabited

namespace Installation

/-- The installation on the partition with a given root, if there is one. -/
def ofRoot? (t : FileTree) (root : Path) : Option Installation :=
  let windowsDir := root.child "Windows"
  let systemDir := windowsDir.child "System32"
  if t.isDir systemDir then
    some {
      safeSearch := none
      knownDlls := some (KnownDlls.windowsDefault systemDir)
      windowsDir
      systemDir
      system16Dir := windowsDir.child "System"
      systemPath := none }
  else none

/-- The nearest directory above a file that is the root of an installation. -/
def findRoot? (t : FileTree) (file : Path) : Option Path := do
  let dir ← file.parent?
  dir.ancestors.find? fun root => (ofRoot? t root).isSome

/-- The installation on the partition that a file lies on, if there is one. -/
def ofFile? (t : FileTree) (file : Path) : Option Installation := do
  ofRoot? t (← findRoot? t file)

/-- Whether the safe DLL search mode is on; it is, unless it is known to be off. -/
def isSafe (i : Installation) : Bool :=
  i.safeSearch.getD true

end Installation

end DllGraph
