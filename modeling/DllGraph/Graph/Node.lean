import DllGraph.Image.Exports
import DllGraph.Image.Imports
import DllGraph.SearchPath.Basic

/-!
# Modules and Dependencies

A module is a node of the dependency graph: a program or a DLL, under the name by which it was
first mentioned. What its file says is kept with it. A dependency is an edge of the graph, from a
module to one that it imports from, with every imported symbol and what it was matched with.

## Main definitions

* `Pairing`, an imported symbol and what it was matched with; `ExportTable.pair`, the match;
* `Dependency`, an edge; `Dependency.status`, the worst status among its pairings;
* `Node`, a module.
-/

namespace DllGraph

/-! ### Pairings -/

/-- How an imported symbol was matched. -/
inductive ImportStatus where
  | resolved
  /-- The export forwards to another module. -/
  | forwarded
  /-- There is no such export, or nothing is known of the module. -/
  | unresolved
deriving DecidableEq, Inhabited

/-- An imported symbol and the export that it was matched with, by its slot. -/
structure Pairing where
  symbol : ImportedSymbol
  status : ImportStatus
  slot : Option Nat
deriving DecidableEq, Inhabited

/-- A symbol that has not been matched. -/
def Pairing.unmatched (symbol : ImportedSymbol) : Pairing :=
  ⟨symbol, .unresolved, none⟩

/-- The slot of an export table that a symbol asks for. -/
def ExportTable.slotOf? (t : ExportTable) : ImportedSymbol → Option Nat
  | .byName _ name => t.findByName? name
  | .byOrdinal ordinal => t.findByOrdinal? ordinal
  | .invalid _ => none

/-- Match a symbol with the exports of a module. -/
def ExportTable.pair (t : ExportTable) (symbol : ImportedSymbol) : Pairing :=
  match t.slotOf? symbol with
  | none => .unmatched symbol
  | some slot =>
    match t.target? slot with
    | some (.code _) => ⟨symbol, .resolved, some slot⟩
    | some (.forwarder _) => ⟨symbol, .forwarded, some slot⟩
    | _ => .unmatched symbol

/-- Match a symbol with the exports of a module, which may have none. -/
def Pairing.ofExports (exports : Option ExportTable) (symbol : ImportedSymbol) : Pairing :=
  match exports with
  | some t => t.pair symbol
  | none => .unmatched symbol

/-! ### Dependencies -/

/-- What a module imports from another one. -/
structure Dependency where
  /-- The name of the other module as it stands in the import table. -/
  dllName : String
  /-- The position of the other module in the graph. -/
  target : Nat
  delayLoad : Bool
  imports : List Pairing
deriving DecidableEq, Inhabited

/-- The worst status among the imports of a dependency. -/
def Dependency.status (d : Dependency) : ImportStatus :=
  if d.imports.any (·.status = .unresolved) then .unresolved
  else if d.imports.any (·.status = .forwarded) then .forwarded
  else .resolved

/-- The dependency with its imports matched with the exports of its target. -/
def Dependency.paired (d : Dependency) (exports : Option ExportTable) : Dependency :=
  { d with imports := d.imports.map fun p => Pairing.ofExports exports p.symbol }

/-! ### Modules -/

/-- Files are compared as arrays of bytes. -/
instance (priority := high) decidableEqByteArray : DecidableEq ByteArray :=
  ByteArray.instDecidableEq

/-- A module of the dependency graph. -/
structure Node where
  /-- The name by which the module was first mentioned. -/
  name : String
  /-- The file of the module; none if it was not found. -/
  path : Option Path
  isRoot : Bool
  /-- The entry of the search path that the module was found through. -/
  location : Option SearchEntry
  /-- The depth in the dependency tree at which the module was first mentioned. -/
  depth : Nat
  image : Option Image
  imports : Option ImportTable
  exports : Option ExportTable
  dependencies : List Dependency
  diagnostics : List Diagnostic
  /-- The bytes of the file. -/
  content : Option ByteArray
deriving DecidableEq, Inhabited

namespace Node

/-- A module of which nothing has been read yet. -/
def unread (name : String) (path : Option Path) (location : Option SearchEntry) (depth : Nat)
    (isRoot : Bool) : Node where
  name
  path
  isRoot
  location
  depth
  image := none
  imports := none
  exports := none
  dependencies := []
  diagnostics := []
  content := none

/-- A file that is to be analysed. -/
def ofRoot (name : String) (path : Path) : Node :=
  .unread name (some path) none 0 true

/-- A DLL that another module imports, as far as it was found. -/
def ofHit (name : String) (depth : Nat) : Option Hit → Node
  | some hit => .unread name (some hit.path) (some hit.location) depth false
  | none => .unread name none none depth false

/-- The name of the file if the module was found and the name is a text, else the name by which the
module was mentioned. -/
def displayName (n : Node) : String :=
  (n.path.bind Path.moduleName?).getD n.name

/-- Whether the module was found. -/
def isFound (n : Node) : Bool := n.path.isSome

/-- Whether the headers of the module could be read. -/
def isValid (n : Node) : Bool := n.image.isSome

/-- Whether the module belongs to the operating system. -/
def isSystem (n : Node) : Bool := n.location.any (·.isSystem)

/-- Whether the module is a known DLL. -/
def isKnownDll (n : Node) : Bool := n.location = some .knownDlls

/-- The number of symbols that the module imports. -/
def importCount (n : Node) : Nat := (n.imports.map ImportTable.symbolCount).getD 0

/-- The number of slots in the export table of the module. -/
def exportCount (n : Node) : Nat := (n.exports.map ExportTable.count).getD 0

/-! ### Reading the file of a module -/

/-- The report that the file of a module cannot be read. -/
def unreadable (n : Node) (path : Path) (e : FileError) : Diagnostic :=
  ⟨n.displayName, none, "could not read " ++ path.text ++ ": " ++ e.message⟩

/-- The module with what the bytes of its file say. Bytes whose headers cannot be read say nothing
more than that; otherwise what is wrong with the imports comes before what is wrong with the
exports. -/
def withContent (n : Node) (b : ByteArray) : Node :=
  match Image.parse b with
  | .error fault =>
    { n with diagnostics := [.ofFault n.displayName fault], content := some b }
  | .ok image =>
    let imports := readImports b image
    let exports := readExports b image
    { n with
      image := some image
      imports := some imports.value
      exports := exports.value
      diagnostics := (imports.faults ++ exports.faults).map (Diagnostic.ofFault n.displayName)
      content := some b }

/-- The module with what its file says. A module that was not found stays as it is. -/
def read (t : FileTree) (n : Node) : Node :=
  match n.path with
  | none => n
  | some path =>
    match t.load path with
    | .error e => { n with diagnostics := [n.unreadable path e] }
    | .ok b => n.withContent b

section Read

variable {t : FileTree} {n : Node} {path : Path} {b : ByteArray} {image : Image} {e : FileError}
  {fault : Fault}

/-- Bytes that are no image are reported, and nothing else is known of the module. -/
theorem withContent_of_error (hparse : Image.parse b = .error fault) :
    n.withContent b =
      { n with diagnostics := [.ofFault n.displayName fault], content := some b } := by
  simp only [withContent, hparse]

/-- Bytes that are an image give the module its image and its tables, and the faults of both
tables. -/
theorem withContent_of_ok (hparse : Image.parse b = .ok image) :
    n.withContent b = { n with
      image := some image
      imports := some (readImports b image).value
      exports := (readExports b image).value
      diagnostics := ((readImports b image).faults ++ (readExports b image).faults).map
        (Diagnostic.ofFault n.displayName)
      content := some b } := by
  simp only [withContent, hparse]

/-- A module that was not found is left as it is. -/
theorem read_of_path_eq_none (hpath : n.path = none) : n.read t = n := by
  simp only [read, hpath]

/-- A module whose file cannot be read is reported, and stays as it is otherwise. -/
theorem read_of_error (hpath : n.path = some path) (hload : t.load path = .error e) :
    n.read t = { n with diagnostics := [n.unreadable path e] } := by
  simp only [read, hpath, hload]

/-- A module whose file can be read is what the bytes of the file say. -/
theorem read_of_ok (hpath : n.path = some path) (hload : t.load path = .ok b) :
    n.read t = n.withContent b := by
  simp only [read, hpath, hload]

end Read

/-- The DLLs that the module imports from. -/
def importedDlls (n : Node) : List ImportedDll :=
  (n.imports.map (·.dlls)).getD []

end Node

end DllGraph
