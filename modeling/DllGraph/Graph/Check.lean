import DllGraph.Graph.Analysis

/-!
# Checking for What Is Missing

What the modules of an analysis import and do not get: DLLs that were not found, and symbols that
a DLL does not export. The report goes by the names of the importing modules, and everything in it
is in order of names.

## Main definitions

* `MissingDll` and `MissingSymbol`, single findings; `Node.missingDlls` and `Node.missingSymbols`,
  those of a module;
* `CheckReport` and `Analysis.check`, the findings of all modules, grouped and sorted.
-/

namespace DllGraph

/-- A DLL that was not found. -/
structure MissingDll where
  importer : String
  dll : String
deriving DecidableEq

/-- A symbol that a DLL does not export. -/
structure MissingSymbol where
  importer : String
  dll : String
  symbol : String
deriving DecidableEq

/-- What is missing, by the names of the importing modules and, for symbols, of the DLLs. -/
structure CheckReport where
  dlls : List (String × List String)
  symbols : List (String × List (String × List String))
deriving DecidableEq, Inhabited

namespace CheckReport

/-- The report of nothing missing. -/
def empty : CheckReport := ⟨[], []⟩

/-- Whether nothing is missing. -/
def isEmpty (r : CheckReport) : Bool :=
  r.dlls.isEmpty && r.symbols.isEmpty

end CheckReport

/-- The table of some missing DLLs with one more. -/
def MissingDll.addTo (m : MissingDll) (table : List (String × List String)) :
    List (String × List String) :=
  Sorted.update m.importer (fun dlls => Sorted.insert m.dll (dlls.getD [])) table

/-- The table of some missing symbols with one more. -/
def MissingSymbol.addTo (m : MissingSymbol) (table : List (String × List (String × List String))) :
    List (String × List (String × List String)) :=
  Sorted.update m.importer (fun dlls =>
    Sorted.update m.dll (fun symbols => Sorted.insert m.symbol (symbols.getD [])) (dlls.getD []))
    table

/-- Whether the module at a position was found. -/
def isFoundAt (nodes : Array Node) (id : Nat) : Bool :=
  nodes[id]?.any (·.isFound)

/-- The DLLs that a module imports from and that were not found. -/
def Node.missingDlls (nodes : Array Node) (n : Node) : List MissingDll :=
  (n.dependencies.filter fun d => !isFoundAt nodes d.target).map fun d =>
    ⟨n.displayName, d.dllName⟩

/-- The symbols that a module imports from a DLL that was found but does not export them. -/
def Node.missingSymbols (nodes : Array Node) (n : Node) : List MissingSymbol :=
  (n.dependencies.filter fun d => isFoundAt nodes d.target).flatMap fun d =>
    (d.imports.filter (·.status = .unresolved)).map fun p =>
      ⟨n.displayName, d.dllName, p.symbol.label⟩

/-- What is missing. -/
def Analysis.check (a : Analysis) : CheckReport where
  dlls := (a.nodes.toList.flatMap (Node.missingDlls a.nodes)).foldr MissingDll.addTo []
  symbols := (a.nodes.toList.flatMap (Node.missingSymbols a.nodes)).foldr MissingSymbol.addTo []

end DllGraph
