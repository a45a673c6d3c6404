import DllGraph.Graph.Scan
import DllGraph.Sorted

/-!
# The Dependency Graph

The result of an analysis: the modules that some files depend on, and what each imports from which
other one. Once all modules have been read, every imported symbol is matched with the exports of
the module that it is imported from.

## Main definitions

* `Analysis.ofRoots`, the analysis of some files;
* `Analysis.idOf?` and `Analysis.get?`, which find a module by its name;
* `Analysis.byDepth`, `Analysis.dependents` and `Analysis.usedSlots`, questions about the graph.
-/

namespace DllGraph

/-- The modules that some files depend on. -/
structure Analysis where
  /-- The modules, in the order in which they were first mentioned. -/
  nodes : Array Node
  /-- The position of each module by its lowercase name. -/
  index : List (String × Nat)
  /-- The positions of the files that the analysis started from. -/
  roots : List Nat
deriving DecidableEq, Inhabited

/-- The exports of the module at a position. -/
def exportsAt (nodes : Array Node) (id : Nat) : Option ExportTable :=
  nodes[id]?.bind (·.exports)

/-- The module with its imports matched with the exports of other modules. -/
def Node.paired (nodes : Array Node) (n : Node) : Node :=
  { n with dependencies := n.dependencies.map fun d => d.paired (exportsAt nodes d.target) }

/-- The graph that a scan has found, with all imports matched. -/
def Scan.toAnalysis (s : Scan) : Analysis where
  nodes := s.nodes.map (Node.paired s.nodes)
  index := s.index
  roots := s.roots

namespace Analysis

/-- The analysis of some files, and what has been read of the file tree by its end to look up
DLLs. -/
def ofRoots (p : SearchPath) (t : FileTree) (cache : SearchCache) (roots : List Path) :
    Except Failure (Analysis × SearchCache) :=
  match roots with
  | [] => .error .nothingToScan
  | _ =>
    match (Scan.empty cache).addRoots roots with
    | .error e => .error e
    | .ok s =>
      let done := s.run p t
      .ok (done.toAnalysis, done.cache)

/-! ### Finding a module -/

/-- The position of the module of a name, without regard to case. -/
def idOf? (a : Analysis) (name : String) : Option Nat :=
  a.index.lookup (Text.lowercase name)

/-- The module of a name, without regard to case. -/
def get? (a : Analysis) (name : String) : Option Node := do
  a.nodes[← a.idOf? name]?

/-- Whether there is a module of a name, without regard to case. -/
def contains (a : Analysis) (name : String) : Bool :=
  (a.idOf? name).isSome

/-! ### Questions about the graph -/

/-- The modules by the depth of their first mention; those of one depth stay in order. -/
def byDepth (a : Analysis) : List Node :=
  a.nodes.toList.mergeSort fun n m => n.depth ≤ m.depth

/-- The positions of the modules that import from a given one. -/
def dependents (a : Analysis) (id : Nat) : List Nat :=
  (List.range a.nodes.size).filter fun i =>
    a.nodes[i]?.any fun n => n.dependencies.any (·.target = id)

/-- The slots in the export table of a module that some import has been matched with. -/
def usedSlots (a : Analysis) (id : Nat) : List Nat :=
  Sorted.ofList <| a.nodes.toList.flatMap fun n =>
    (n.dependencies.filter (·.target = id)).flatMap fun d => d.imports.filterMap (·.slot)

/-- Everything that is wrong with some module. -/
def diagnostics (a : Analysis) : List Diagnostic :=
  a.nodes.toList.flatMap (·.diagnostics)

end Analysis

end DllGraph
