import DllGraph.Installation

/-!
# Queries

What an analysis starts from: the files whose dependencies are wanted, and what the process that
loads them would run with, namely its Windows installation, its working directory and the search
path that the user has set.
-/

namespace DllGraph

/-- What an analysis starts from. -/
structure Query where
  installation : Option Installation
  roots : List Path
  /-- The working directory of the process. -/
  workingDir : Path
  /-- Further directories to search, as set by the user. -/
  userPath : List Path
deriving DecidableEq, Inhabited

namespace Query

/-- A query for some files on an installation. The working directory is that of the first file. -/
def ofRoots (installation : Option Installation) (roots : List Path) : Except Failure Query :=
  match roots with
  | [] => .error .noExecutable
  | first :: _ =>
    match first.parent? with
    | none => .error (.noDirectory first)
    | some workingDir => .ok { installation, roots, workingDir, userPath := [] }

/-- A query for some files on the installation that the first of them lies on, if any. -/
def deduce (t : FileTree) (roots : List Path) : Except Failure Query :=
  ofRoots (roots.head?.bind (Installation.ofFile? t)) roots

/-- The known DLLs of the installation. -/
def knownDlls? (q : Query) : Option KnownDlls :=
  q.installation.bind (·.knownDlls)

end Query

end DllGraph
