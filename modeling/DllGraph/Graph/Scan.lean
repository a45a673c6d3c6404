import DllGraph.Graph.Node
import DllGraph.SearchPath.Cache

/-!
# Scanning for Dependencies

A scan finds the modules that some files depend on, breadth first. Its state holds the modules
met so far, an index of them by lowercase name, and a queue of those whose files have yet to be
read. A step takes the first module of the queue, reads its file, and looks up each DLL that it
imports from, unless a module of that name has been met before. So the first mention of a name
decides where its module is, and every module is read once at most.

## Main definitions

* `Scan`, the state; `Scan.addRoot`, which adds a file to start from;
* `Scan.resolve`, which finds the module for the name of a DLL, or adds it;
* `Scan.step`, which reads one module, and `Scan.run`, which goes on until none is left.
-/

namespace DllGraph

/-- The state of a scan. -/
structure Scan where
  /-- The modules, in the order in which they were first mentioned. -/
  nodes : Array Node
  /-- The position of each module by its lowercase name. -/
  index : List (String × Nat)
  /-- The positions of the modules that were found and have not been read. -/
  queue : List Nat
  /-- The positions of the files to start from. -/
  roots : List Nat
  /-- What has been read of the file tree to look up DLLs. -/
  cache : SearchCache
deriving Inhabited

namespace Scan

/-- A scan that has not met any module. -/
def empty (cache : SearchCache) : Scan :=
  ⟨#[], [], [], [], cache⟩

/-- The position of the module of a name, without regard to case. -/
def idOf? (s : Scan) (name : String) : Option Nat :=
  s.index.lookup (Text.lowercase name)

/-- Add a module, which waits to be read if it has a file. -/
def push (s : Scan) (n : Node) : Scan :=
  { s with
    nodes := s.nodes.push n
    index := (Text.lowercase n.name, s.nodes.size) :: s.index
    queue := if n.isFound then s.queue ++ [s.nodes.size] else s.queue }

/-! ### Roots -/

/-- Note of the module at a position that it is a file to start from. -/
def markRoot (s : Scan) (id : Nat) : Scan :=
  { s with nodes := s.nodes.modify id fun n => { n with isRoot := true } }

/-- Add a file to start from. Of several files of one name, the first one counts. The module goes by
the name of the file, which must be a text. -/
def addRoot (s : Scan) (path : Path) : Except Failure Scan :=
  match path.moduleName? with
  | none => .error (.noFileName path)
  | some name =>
    match s.idOf? name with
    | some id => .ok (s.markRoot id)
    | none => .ok { s.push (.ofRoot name path) with roots := s.roots ++ [s.nodes.size] }

/-- Add files to start from, in order. -/
def addRoots (s : Scan) : List Path → Except Failure Scan
  | [] => .ok s
  | path :: rest =>
    match s.addRoot path with
    | .error e => .error e
    | .ok s => s.addRoots rest

/-! ### Steps -/

/-- The position of the module for a DLL that a module imports. A name that is met for the first
time is looked up, and a module is added for it whether or not it is found. -/
def resolve (s : Scan) (p : SearchPath) (t : FileTree) (importer : Path) (depth : Nat)
    (name : String) : Nat × Scan :=
  match s.idOf? name with
  | some id => (id, s)
  | none =>
    let (hit, cache) := p.search t name importer s.cache
    (s.nodes.size, { s with cache }.push (.ofHit name depth hit))

/-- The dependencies on some DLLs that a module imports, in order, not matched yet. -/
def connect (s : Scan) (p : SearchPath) (t : FileTree) (importer : Path) (depth : Nat) :
    List ImportedDll → List Dependency × Scan
  | [] => ([], s)
  | dll :: rest =>
    let (target, s) := s.resolve p t importer depth dll.name
    let (others, s) := s.connect p t importer depth rest
    (⟨dll.name, target, dll.delayLoad, dll.symbols.map .unmatched⟩ :: others, s)

/-- Read a module and connect it with the modules that it imports from. -/
def process (s : Scan) (p : SearchPath) (t : FileTree) (id : Nat) : Scan :=
  match s.nodes[id]? with
  | none => s
  | some n =>
    match n.path with
    | none => s
    | some path =>
      let n := n.read t
      let (dependencies, s) := s.connect p t path (n.depth + 1) n.importedDlls
      { s with nodes := s.nodes.setIfInBounds id { n with dependencies } }

/-- Read the first module of the queue; nothing is left to do when the queue is empty. -/
def step (s : Scan) (p : SearchPath) (t : FileTree) : Option Scan :=
  match s.queue with
  | [] => none
  | id :: queue => some ({ s with queue }.process p t id)

/-- Go on until the queue is empty, for at most `fuel` steps. -/
def runFor (p : SearchPath) (t : FileTree) : Nat → Scan → Scan
  | 0, s => s
  | fuel + 1, s =>
    match s.step p t with
    | none => s
    | some s => runFor p t fuel s

/-- Go on until the queue is empty. Every step reads a module that was not read before. A module
is either there at the start or named in the import table of some file, and a file has more bytes
than its import tables have records, so the size of the tree bounds the number of steps. -/
def run (s : Scan) (p : SearchPath) (t : FileTree) : Scan :=
  runFor p t (s.nodes.size + t.size) s

end Scan

end DllGraph
