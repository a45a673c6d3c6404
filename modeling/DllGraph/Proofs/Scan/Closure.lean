import DllGraph.Proofs.Scan.Contents
import DllGraph.Proofs.Scan.Depth

/-!
# The Graph Is the Import Closure

The modules of an analysis are the roots and whatever is imported, directly or not, and nothing
else. As a set of lowercase names, they are the least set that has the names of the roots and, with
a module whose file can be read, the names of the DLLs that this file imports from.

The edges of the graph are the entries of the import tables, one by one and in order, so that no
imported DLL and no imported symbol is lost, doubled or attached to another module.

## Main definitions

* `ClosedUnderImports`, the sets that have the roots and what their elements import;
* `Analysis.Leads`, that a dependency leads to the module that is registered under its name.

## Main results

* `Scan.Reached.leads` — every dependency leads to the module of its name;
* `Analysis.mem_of_walk` — a closed set has whatever can be reached from a root;
* `Analysis.isLeast_keys` — the modules are the least closed set.
-/

namespace DllGraph

/-- A set of lowercase names that has the names of the roots and, for each module whose name is in
it and whose file can be read, the names of the DLLs that the file imports from. -/
structure ClosedUnderImports (t : FileTree) (roots : List Path) (nodes : Array Node)
    (names : Set String) : Prop where
  roots : ∀ path ∈ roots, ∀ name, path.moduleName? = some name → Text.lowercase name ∈ names
  imports : ∀ n ∈ nodes, n.key ∈ names → ∀ b image, n.Decodes t b image →
    ∀ dll ∈ (readImports b image).value.dlls, Text.lowercase dll.name ∈ names

/-- The dependency leads to the module that is registered under the name that it mentions. -/
def Analysis.Leads (a : Analysis) (d : Dependency) : Prop :=
  a.idOf? d.dllName = some d.target ∧
    ∃ n, a.nodes[d.target]? = some n ∧ n.key = Text.lowercase d.dllName

namespace Scan

variable {p : SearchPath} {t : FileTree} {cache : SearchCache} {given : List Path}
  {taken : List Nat} {id : Nat} {n : Node} {s : Scan}

/-- The modules of an analysis have the names that its scan has met. -/
theorem exists_key_toAnalysis_iff {key : String} :
    (∃ n ∈ s.toAnalysis.nodes, n.key = key) ↔ ∃ n ∈ s.met, n.key = key := by
  simp [toAnalysis, met]

/-- Every dependency leads to the module of its name. -/
theorem Reached.leads (h : Reached p t cache given taken s) (hn : n ∈ s.toAnalysis.nodes)
    {d : Dependency} (hd : d ∈ n.dependencies) : s.toAnalysis.Leads d := by
  obtain ⟨n, hold, rfl⟩ := Array.mem_map.1 hn
  obtain ⟨d, hdold, rfl⟩ := List.mem_map.1 hd
  obtain ⟨m, hm, hkey⟩ := h.exists_target hold hdold
  refine ⟨h.registered.idOf?_eq_some_iff.2 ⟨m, hm, hkey⟩, m.paired s.nodes, ?_, hkey⟩
  rw [getElem?_toAnalysis]
  exact congrArg (Option.map (Node.paired s.nodes)) hm

/-- What is a root has the name of a given file. -/
theorem Reached.key_mem_of_mem_roots (h : Reached p t cache given taken s) {names : Set String}
    (hroots : ∀ path ∈ given, ∀ name, path.moduleName? = some name → Text.lowercase name ∈ names)
    (hid : id ∈ s.toAnalysis.roots) (hn : s.toAnalysis.nodes[id]? = some n) : n.key ∈ names := by
  obtain ⟨m, hm, hroot⟩ := h.registered.mem_roots_iff.1 hid
  rw [getElem?_toAnalysis, hm, Option.map_some, Option.some.injEq] at hn
  subst hn
  obtain ⟨path, hpath, hkey, -⟩ :=
    h.rooted.exists_mem (asMet_mem_met (Array.mem_of_getElem? hm)) hroot
  obtain ⟨name, hname, hlower⟩ := Option.map_eq_some_iff.1 hkey
  rw [Node.key_paired, ← Node.key_asMet, ← hlower]
  exact hroots path hpath name hname

/-- Every given file has a module of its name. -/
theorem Reached.exists_key_of_mem (h : Reached p t cache given taken s) {path : Path}
    (hpath : path ∈ given) {name : String} (hname : path.moduleName? = some name) :
    ∃ n ∈ s.toAnalysis.nodes, n.key = Text.lowercase name := by
  obtain ⟨n, hn, -, hkey⟩ := h.rooted.given path hpath
  rw [rootKey?, hname, Option.map_some, Option.some.injEq] at hkey
  exact exists_key_toAnalysis_iff.2 ⟨n, hn, hkey.symm⟩

/-- Every module is reached from a root. -/
theorem Reached.exists_walk (h : Reached p t cache given taken s)
    (hid : id < s.toAnalysis.nodes.size) :
    ∃ r ∈ s.toAnalysis.roots, ∃ k, Walk s.toAnalysis.nodes r k id := by
  have hn := Array.getElem?_eq_getElem hid
  rw [getElem?_toAnalysis, Option.map_eq_some_iff] at hn
  obtain ⟨n, hn, -⟩ := hn
  obtain ⟨r, hr, hw⟩ := h.layered.exists_walk h.registered hn
  exact ⟨r, hr, n.depth, (walk_toAnalysis s).2 hw⟩

end Scan

namespace Analysis

variable {p : SearchPath} {t : FileTree} {cache c : SearchCache} {roots : List Path} {a : Analysis}
  {names : Set String} {n : Node}

/-- A closed set has whatever can be reached from a module that is in it. -/
theorem mem_of_walk (hnames : ClosedUnderImports t roots a.nodes names)
    (hreports : ∀ n ∈ a.nodes, n.Reports t)
    (hleads : ∀ n ∈ a.nodes, ∀ d ∈ n.dependencies, a.Leads d)
    {r k id : Nat} (hw : Walk a.nodes r k id)
    (hstart : ∀ n, a.nodes[r]? = some n → n.key ∈ names) :
    ∀ n, a.nodes[id]? = some n → n.key ∈ names := by
  induction hw with
  | nil => exact hstart
  | snoc _ hedge ih =>
    intro n hn
    obtain ⟨m, hm, d, hd, rfl⟩ := hedge
    have hmem : m ∈ a.nodes := Array.mem_of_getElem? hm
    -- A module with dependencies has a file that lists them.
    obtain ⟨b, image, hdecodes⟩ := (hreports m hmem).exists_decodes (List.ne_nil_of_mem hd)
    have hdll : d.imported ∈ (readImports b image).value.dlls := by
      rw [← (hreports m hmem).dependencies hdecodes]
      exact List.mem_map_of_mem hd
    obtain ⟨-, n', hn', hkey⟩ := hleads m hmem d hd
    obtain rfl : n' = n := Option.some.inj (hn'.symm.trans hn)
    rw [hkey]
    exact hnames.imports m hmem (ih m hm) b image hdecodes d.imported hdll

/-- The modules of an analysis are the least set of names that has the roots and is closed under
imports. A module with a readable image depends on the DLLs that its import table lists, one by one
and in order, each under the module of its name, and other modules depend on nothing. So there is
nothing that cannot be reached from a root. -/
theorem isLeast_keys (h : ofRoots p t cache roots = .ok (a, c)) :
    IsLeast {names | ClosedUnderImports t roots a.nodes names} {key | ∃ n ∈ a.nodes, n.key = key} ∧
    (∀ n ∈ a.nodes,
      (∀ b image, n.Decodes t b image →
        n.dependencies.map Dependency.imported = (readImports b image).value.dlls) ∧
      ((¬ ∃ b image, n.Decodes t b image) → n.dependencies = []) ∧
      ∀ d ∈ n.dependencies, a.Leads d) ∧
    ∀ id < a.nodes.size, ∃ r ∈ a.roots, ∃ k, Walk a.nodes r k id := by
  obtain ⟨taken, s, hs, hdone, rfl, -⟩ := Scan.exists_finished_of_ofRoots h
  have hreports : ∀ n ∈ s.toAnalysis.nodes, n.Reports t := fun _ hn => (hs.closed hdone).reports hn
  have hleads : ∀ n ∈ s.toAnalysis.nodes, ∀ d ∈ n.dependencies, s.toAnalysis.Leads d :=
    fun _ hn _ hd => hs.leads hn hd
  refine ⟨⟨⟨?_, ?_⟩, ?_⟩, fun n hn => ⟨fun b image hdecodes => ?_, fun hnone => ?_, hleads n hn⟩,
    fun id hid => hs.exists_walk hid⟩
  · exact fun path hpath name hname => hs.exists_key_of_mem hpath hname
  · intro n hn _ b image hdecodes dll hdll
    rw [← (hreports n hn).dependencies hdecodes] at hdll
    obtain ⟨d, hd, rfl⟩ := List.mem_map.1 hdll
    obtain ⟨-, m, hm, hkey⟩ := hleads n hn d hd
    exact ⟨m, Array.mem_of_getElem? hm, hkey⟩
  · rintro names hnames _ ⟨n, hn, rfl⟩
    obtain ⟨id, hid⟩ := Array.mem_iff_getElem?.1 hn
    obtain ⟨r, hr, k, hw⟩ := hs.exists_walk (Array.getElem?_eq_some_iff.1 hid).1
    exact mem_of_walk hnames hreports hleads hw
      (fun _ hm => hs.key_mem_of_mem_roots hnames.roots hr hm) n hid
  · exact (hreports n hn).dependencies hdecodes
  · by_contra hne
    exact hnone ((hreports n hn).exists_decodes hne)

/-- The sample program imports from one DLL, which imports from the program in turn. -/
theorem isLeast_keys_sample :
    ∃ a c, ofRoots Scan.samplePath Scan.sampleTree .empty [⟨"app.exe"⟩] = .ok (a, c) ∧
      a.nodes.toList.map Node.name = ["app.exe", "B.DLL"] ∧
      IsLeast {names | ClosedUnderImports Scan.sampleTree [⟨"app.exe"⟩] a.nodes names}
        {key | ∃ n ∈ a.nodes, n.key = key} := by
  obtain ⟨a, c, r, n, h, hnodes, ⟨hr, -⟩, hn, -⟩ := Scan.exists_sample
  obtain ⟨hleast, -⟩ := isLeast_keys h
  exact ⟨a, c, h, by simp [hnodes, hr, hn], hleast⟩

end Analysis

end DllGraph
