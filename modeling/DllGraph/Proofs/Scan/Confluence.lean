import DllGraph.Proofs.Check
import DllGraph.Proofs.Scan.Depth
import DllGraph.Proofs.Scan.Location
import DllGraph.Proofs.TextNames

/-!
# The Order of the Roots

Two scans that start from the same files in different orders number their modules differently, and
may meet a name under different casings. This module proves that nothing else differs: the modules
go together by their lowercase names, and what is known of two that go together is the same.

The proof follows a shortest path to a module. The root that it starts from is among the roots of
either scan, and if two modules go together then so do those that they import, one layer below. So a
module of one scan has one that goes with it in the other scan, which is at most as deep; and the
other way round.

One thing depends on the casing after all. A diagnostic names the file of its module, and where the
path of the module does not end in a name that is a text, it uses the name by which the module was
first mentioned.

## Main definitions

* `Dependency.Alike` and `Node.Alike`, that dependencies and modules of two analyses are the same up
  to their positions;
* `Scan.Permuted`, two scans of the same files that have come to an end.

## Main results

* `Scan.Permuted.exists_of_key` — modules go together;
* `Analysis.ofRoots_perm` — the order of the roots does not matter.
-/

namespace DllGraph

/-! ### What is the same -/

/-- The dependencies have the same imports with the same matches, and lead to modules of one
name. -/
structure Dependency.Alike (nodes nodes' : Array Node) (d d' : Dependency) : Prop where
  dllName : d.dllName = d'.dllName
  delayLoad : d.delayLoad = d'.delayLoad
  imports : d.imports = d'.imports
  target : ∃ n m : Node, nodes[d.target]? = some n ∧ nodes'[d'.target]? = some m ∧ n.key = m.key

/-- What a diagnostic says, apart from the name of the module that it is about. -/
def Diagnostic.finding (d : Diagnostic) : Option Nat × String :=
  (d.offset, d.reason)

/-- The files of the modules say the same. -/
structure Node.SaysSame (n m : Node) : Prop where
  image : n.image = m.image
  imports : n.imports = m.imports
  exports : n.exports = m.exports
  content : n.content = m.content
  findings : n.diagnostics.map Diagnostic.finding = m.diagnostics.map Diagnostic.finding
  /-- Diagnostics go by the names of the files, if there are such names. -/
  diagnostics : (∀ path, n.path = some path → path.moduleName?.isSome) →
    n.diagnostics = m.diagnostics

/-- The modules are the same, up to the casing of their names and the positions of others. -/
structure Node.Alike (nodes nodes' : Array Node) (n m : Node) : Prop extends n.SaysSame m where
  path : n.path = m.path
  location : n.location = m.location
  depth : n.depth = m.depth
  isRoot : n.isRoot = m.isRoot
  dependencies : List.Forall₂ (Dependency.Alike nodes nodes') n.dependencies m.dependencies

namespace Node

variable {n m : Node} {t : FileTree} {ds ds' : List Dependency}

/-- Modules at one path that gives a name are shown by the same name. -/
theorem displayName_congr (hpath : n.path = m.path)
    (h : ∀ path, n.path = some path → path.moduleName?.isSome) (hfound : n.path ≠ none) :
    n.displayName = m.displayName := by
  simp only [displayName]
  rw [← hpath]
  cases hp : n.path with
  | none => exact absurd hp hfound
  | some path =>
    obtain ⟨name, hname⟩ := Option.isSome_iff_exists.1 (h path hp)
    simp [hname]

/-- What a fault is about does not depend on the name that is shown with it. -/
theorem map_finding_ofFault (name : String) (faults : List Fault) :
    (faults.map (Diagnostic.ofFault name)).map Diagnostic.finding =
      faults.map fun fault => (fault.rva?.map UInt32.toNat, fault.message) := by
  rw [List.map_map]
  rfl

/-- Two modules at one path say the same about the same bytes. -/
theorem saysSame_withContent {b : ByteArray} (hpath : n.path = m.path) (hfound : n.path ≠ none) :
    (n.asMet.withContent b).SaysSame (m.asMet.withContent b) := by
  have hname : (∀ path, (n.asMet.withContent b).path = some path → path.moduleName?.isSome) →
      n.asMet.displayName = m.asMet.displayName := by
    intro h
    have hkeeps : (n.asMet.withContent b).path = n.path := by rw [withContent]; split <;> rfl
    rw [hkeeps] at h
    exact displayName_congr hpath h hfound
  revert hname
  simp only [withContent]
  cases Image.parse b with
  | error fault =>
    intro hname
    exact ⟨rfl, rfl, rfl, rfl, rfl, fun h => by rw [hname h]⟩
  | ok image =>
    intro hname
    refine ⟨rfl, rfl, rfl, rfl, ?_, fun h => by rw [hname h]⟩
    rw [map_finding_ofFault, map_finding_ofFault]

/-- Modules at one path say the same once they have been read. -/
theorem saysSame_connected (hpath : n.path = m.path) :
    (n.asMet.connected t ds).SaysSame (m.asMet.connected t ds') := by
  have hread : (n.asMet.read t).SaysSame (m.asMet.read t) := by
    simp only [read]
    rw [path_asMet, path_asMet, ← hpath]
    cases hp : n.path with
    | none => exact ⟨rfl, rfl, rfl, rfl, rfl, fun _ => rfl⟩
    | some path =>
      dsimp only
      have hfound : n.path ≠ none := by rw [hp]; exact Option.some_ne_none path
      cases t.load path with
      | error e =>
        refine ⟨rfl, rfl, rfl, rfl, rfl, fun h => ?_⟩
        have hname : n.asMet.displayName = m.asMet.displayName :=
          displayName_congr hpath (fun q hq => h q (by rwa [path_asMet, hp] at hq)) hfound
        simp only [unreadable, hname]
      | ok b => exact saysSame_withContent hpath hfound
  exact ⟨hread.image, hread.imports, hread.exports, hread.content, hread.findings,
    hread.diagnostics⟩

end Node

/-- Lists that correspond to one list correspond to each other. -/
theorem forall₂_of_forall₂ {α β γ : Type} {r : α → β → Prop} {q : α → γ → Prop} {as : List α}
    {bs : List β} {cs : List γ} (hbs : List.Forall₂ r as bs) (hcs : List.Forall₂ q as cs) :
    List.Forall₂ (fun b c => ∃ a ∈ as, r a b ∧ q a c) bs cs := by
  induction hbs generalizing cs with
  | nil =>
    cases hcs
    exact .nil
  | cons hb _ ih =>
    cases hcs with
    | cons hc hcs =>
      refine .cons ⟨_, List.mem_cons_self .., hb, hc⟩ ((ih hcs).imp ?_)
      rintro b c ⟨a, ha, hr⟩
      exact ⟨a, List.mem_cons_of_mem _ ha, hr⟩

namespace Scan

variable {p : SearchPath} {t : FileTree} {cache cache' : SearchCache} {roots roots' : List Path}
  {taken taken' : List Nat} {i j : Nat} {n m : Node} {s s' : Scan}

/-! ### Two scans of the same files -/

/-- Two scans have come to an end that started from the same files, in some order each, and by
caches that agree. -/
structure Permuted (p : SearchPath) (t : FileTree) (cache cache' : SearchCache)
    (roots roots' : List Path) (taken taken' : List Nat) (s s' : Scan) : Prop where
  left : Reached p t cache roots taken s
  right : Reached p t cache' roots' taken' s'
  leftDone : s.queue = []
  rightDone : s'.queue = []
  ignores : p.IgnoresImporter
  perm : roots.Perm roots'
  distinct : (roots.map rootKey?).Nodup
  agrees : cache.Agrees t cache'

namespace Permuted

/-- The two runs play the same part. -/
theorem symm (h : Permuted p t cache cache' roots roots' taken taken' s s') :
    Permuted p t cache' cache roots' roots taken' taken s' s where
  left := h.right
  right := h.left
  leftDone := h.rightDone
  rightDone := h.leftDone
  ignores := h.ignores
  perm := h.perm.symm
  distinct := (h.perm.map rootKey?).nodup_iff.1 h.distinct
  agrees := h.agrees.symm

/-- A name that is a root of one scan is a root of the other. -/
theorem isRoot_of_key (h : Permuted p t cache cache' roots roots' taken taken' s s')
    (hn : s.nodes[i]? = some n) (hm : s'.nodes[j]? = some m) (hkey : n.key = m.key)
    (hroot : n.isRoot = true) : m.isRoot = true := by
  obtain ⟨path, hpath, hname, -⟩ := h.left.exists_path_of_isRoot h.ignores hn hroot
  obtain ⟨k, r, hr, hrroot, hrname⟩ := h.right.exists_root h.ignores (h.perm.mem_iff.1 hpath)
  have hrkey : r.key = m.key := by
    rw [← hkey]
    exact Option.some.inj (hrname.symm.trans hname)
  obtain rfl : k = j := h.right.registered.eq_of_key hr hm hrkey
  obtain rfl : r = m := Option.some.inj (hr.symm.trans hm)
  exact hrroot

/-- Modules of one name have been met at one place. -/
theorem met_of_key (h : Permuted p t cache cache' roots roots' taken taken' s s')
    (hn : s.nodes[i]? = some n) (hm : s'.nodes[j]? = some m) (hkey : n.key = m.key) :
    n.path = m.path ∧ n.location = m.location ∧ n.isRoot = m.isRoot := by
  have hroots : n.isRoot = m.isRoot := by
    rw [Bool.eq_iff_iff]
    exact ⟨h.isRoot_of_key hn hm hkey, h.symm.isRoot_of_key hm hn hkey.symm⟩
  suffices hmet : n.asMet.path = m.asMet.path ∧ n.asMet.location = m.asMet.location from
    ⟨hmet.1, hmet.2, hroots⟩
  cases hroot : n.isRoot with
  | true =>
    obtain ⟨path, hpath, hname, heq⟩ := h.left.exists_path_of_isRoot h.ignores hn hroot
    obtain ⟨path', hpath', hname', heq'⟩ :=
      h.right.exists_path_of_isRoot h.ignores hm (hroots.symm.trans hroot)
    -- No two of the roots have one name.
    rw [hkey] at hname
    obtain rfl : path = path' := List.inj_on_of_nodup_map h.distinct hpath
      (h.perm.mem_iff.2 hpath') (hname.trans hname'.symm)
    rw [heq, heq']
    exact ⟨rfl, rfl⟩
  | false =>
    obtain ⟨depth, heq⟩ := h.left.exists_eq_ofHit h.ignores hn hroot
    obtain ⟨depth', heq'⟩ := h.right.exists_eq_ofHit h.ignores hm (hroots.symm.trans hroot)
    have hplace : place? p t cache n.key = place? p t cache' m.key := by
      rw [hkey]
      exact SearchPath.search_congr h.ignores h.agrees rfl rfl
    rw [heq, heq', hplace]
    cases place? p t cache' m.key <;> exact ⟨rfl, rfl⟩

/-- Modules of one name import from the same DLLs. -/
theorem forall₂_connects (h : Permuted p t cache cache' roots roots' taken taken' s s')
    (hn : s.nodes[i]? = some n) (hm : s'.nodes[j]? = some m) (hkey : n.key = m.key) :
    List.Forall₂ (fun d d' => ∃ dll, s.Connects dll d ∧ s'.Connects dll d') n.dependencies
      m.dependencies := by
  have hpath : n.path = m.path := (h.met_of_key hn hm hkey).1
  have hleft : s.Closed t := h.left.closed h.leftDone
  have hright : s'.Closed t := h.right.closed h.rightDone
  cases hp : n.path with
  | none =>
    have hnfound : n.isFound = false := by rw [Node.isFound, hp]; rfl
    have hmfound : m.isFound = false := by rw [Node.isFound, ← hpath, hp]; rfl
    rw [hleft.notFound hn hnfound, hright.notFound hm hmfound]
    exact .nil
  | some path =>
    have hnread : s.Settled t n := hleft.found hn (by rw [Node.isFound, hp]; rfl)
    have hmread : s'.Settled t m := hright.found hm (by rw [Node.isFound, ← hpath, hp]; rfl)
    have hdlls : m.importedDlls = n.importedDlls := by
      rw [hnread.importedDlls hp, hmread.importedDlls (hpath.symm.trans hp)]
    have hconnects := hmread.dependencies
    rw [hdlls] at hconnects
    refine (forall₂_of_forall₂ hnread.dependencies hconnects).imp ?_
    rintro d d' ⟨dll, -, hd⟩
    exact ⟨dll, hd⟩

/-- Every module of one scan has one of its name in the other scan, which is at most as deep. -/
theorem exists_of_key (h : Permuted p t cache cache' roots roots' taken taken' s s')
    (hn : s.nodes[i]? = some n) :
    ∃ (j : Nat) (m : Node), s'.nodes[j]? = some m ∧ n.key = m.key ∧ m.depth ≤ n.depth := by
  induction hk : n.depth using Nat.strongRecOn generalizing i n with
  | ind k ih =>
    cases hroot : n.isRoot with
    | true =>
      obtain ⟨path, hpath, hname, -⟩ := h.left.exists_path_of_isRoot h.ignores hn hroot
      obtain ⟨j, m, hm, hmroot, hmname⟩ :=
        h.right.exists_root h.ignores (h.perm.mem_iff.1 hpath)
      have hzero : m.depth = 0 := (h.right.layered.depth_eq_zero_iff h.right.registered hm).2
        (h.right.registered.mem_roots_iff.2 ⟨m, hm, hmroot⟩)
      refine ⟨j, m, hm, Option.some.inj (hname.symm.trans hmname), ?_⟩
      rw [hzero]
      exact Nat.zero_le k
    | false =>
      have hmet : s.met[i]? = some n.asMet := getElem?_met_of_nodes hn
      obtain ⟨i', n', hn', ⟨d, hd, htarget⟩, hdepth⟩ := h.left.layered.parent hmet hroot
      rw [Node.depth_asMet, hk] at hdepth
      obtain ⟨j', m', hm', hkey, hle⟩ := ih n'.depth (by omega) hn' rfl
      -- What the importing modules import goes together as they do.
      obtain ⟨d', hd', dll, hconnects, hconnects'⟩ :=
        exists_right_of_forall₂ (h.forall₂_connects hn' hm' hkey) hd
      have hname : n.key = Text.lowercase dll.name := by
        obtain ⟨n₁, hn₁, hn₁key⟩ := h.left.registered.idOf?_eq_some_iff.1 hconnects.target
        rw [htarget, hn] at hn₁
        cases hn₁
        exact hn₁key
      obtain ⟨m, hm, hmkey⟩ := h.right.registered.idOf?_eq_some_iff.1 hconnects'.target
      have hmmet : s'.met[d'.target]? = some m.asMet := getElem?_met_of_nodes hm
      have hedge : m.asMet.depth ≤ m'.depth + 1 := h.right.layered.edge hm' hd' hmmet
      rw [Node.depth_asMet] at hedge
      exact ⟨d'.target, m, hm, hname.trans hmkey.symm, by omega⟩

/-- A module is no deeper in the other run. -/
theorem depth_of_key (h : Permuted p t cache cache' roots roots' taken taken' s s')
    (hn : s.nodes[i]? = some n) (hm : s'.nodes[j]? = some m) (hkey : n.key = m.key) :
    m.depth ≤ n.depth := by
  obtain ⟨j', m', hm', hkey', hle⟩ := h.exists_of_key hn
  obtain rfl : j' = j := h.right.registered.eq_of_key hm' hm (hkey'.symm.trans hkey)
  obtain rfl : m' = m := Option.some.inj (hm'.symm.trans hm)
  exact hle

/-- Modules of one name say the same. -/
theorem saysSame_of_key (h : Permuted p t cache cache' roots roots' taken taken' s s')
    (hn : s.nodes[i]? = some n) (hm : s'.nodes[j]? = some m) (hkey : n.key = m.key) :
    n.SaysSame m := by
  rw [(h.left.closed h.leftDone).eq_connected hn, (h.right.closed h.rightDone).eq_connected hm]
  exact Node.saysSame_connected (h.met_of_key hn hm hkey).1

/-- Matching leaves dependencies the same that were the same before. -/
theorem alike_paired (h : Permuted p t cache cache' roots roots' taken taken' s s')
    {d d' : Dependency} (hd : ∃ dll, s.Connects dll d ∧ s'.Connects dll d') :
    Dependency.Alike s.toAnalysis.nodes s'.toAnalysis.nodes
      (d.paired (exportsAt s.nodes d.target)) (d'.paired (exportsAt s'.nodes d'.target)) := by
  obtain ⟨dll, hconnects, hconnects'⟩ := hd
  obtain ⟨n, hn, hnkey⟩ := h.left.registered.idOf?_eq_some_iff.1 hconnects.target
  obtain ⟨m, hm, hmkey⟩ := h.right.registered.idOf?_eq_some_iff.1 hconnects'.target
  have hkey : n.key = m.key := hnkey.trans hmkey.symm
  have hexports : exportsAt s.nodes d.target = exportsAt s'.nodes d'.target := by
    rw [exportsAt, exportsAt, hn, hm]
    exact (h.saysSame_of_key hn hm hkey).exports
  constructor
  · exact hconnects.dllName.trans hconnects'.dllName.symm
  · exact hconnects.delayLoad.trans hconnects'.delayLoad.symm
  · rw [Dependency.paired, Dependency.paired, hexports, hconnects.imports, hconnects'.imports]
  · refine ⟨n.paired s.nodes, m.paired s'.nodes, ?_, ?_, hkey⟩
    · rw [getElem?_toAnalysis]
      exact congrArg (Option.map (Node.paired s.nodes)) hn
    · rw [getElem?_toAnalysis]
      exact congrArg (Option.map (Node.paired s'.nodes)) hm

/-- Modules of one name are the same in the two analyses. -/
theorem alike_of_key (h : Permuted p t cache cache' roots roots' taken taken' s s')
    (hn : n ∈ s.toAnalysis.nodes) (hm : m ∈ s'.toAnalysis.nodes) (hkey : n.key = m.key) :
    n.Alike s.toAnalysis.nodes s'.toAnalysis.nodes m := by
  obtain ⟨n, hold, rfl⟩ := Array.mem_map.1 hn
  obtain ⟨m, hold', rfl⟩ := Array.mem_map.1 hm
  obtain ⟨i, hi⟩ := Array.mem_iff_getElem?.1 hold
  obtain ⟨j, hj⟩ := Array.mem_iff_getElem?.1 hold'
  obtain ⟨hpath, hlocation, hroot⟩ := h.met_of_key hi hj hkey
  have hsame : n.SaysSame m := h.saysSame_of_key hi hj hkey
  refine { image := hsame.image, imports := hsame.imports, exports := hsame.exports,
           content := hsame.content, findings := hsame.findings, diagnostics := hsame.diagnostics,
           path := hpath, location := hlocation, isRoot := hroot, depth := ?_, dependencies := ?_ }
  · have hle : m.depth ≤ n.depth := h.depth_of_key hi hj hkey
    have hge : n.depth ≤ m.depth := h.symm.depth_of_key hj hi hkey.symm
    exact Nat.le_antisymm hge hle
  · refine List.forall₂_map_left_iff.2 (List.forall₂_map_right_iff.2 ?_)
    exact (h.forall₂_connects hi hj hkey).imp fun _ _ hd => h.alike_paired hd

/-- The modules of the two analyses go together. -/
theorem exists_toAnalysis_of_key (h : Permuted p t cache cache' roots roots' taken taken' s s')
    (hn : n ∈ s.toAnalysis.nodes) : ∃ m ∈ s'.toAnalysis.nodes, m.key = n.key := by
  obtain ⟨n, hold, rfl⟩ := Array.mem_map.1 hn
  obtain ⟨i, hi⟩ := Array.mem_iff_getElem?.1 hold
  obtain ⟨j, m, hj, hkey, -⟩ := h.exists_of_key hi
  exact ⟨m.paired s'.nodes, Array.mem_map_of_mem (Array.mem_of_getElem? hj), hkey.symm⟩

end Permuted

/-- The path of a module that could be read gives a name to the module. The path of a root has been
asked for one, and any other path has been built from the name of a file. -/
theorem Reached.isSome_moduleName?_of_load (hp : p.IgnoresImporter) (ht : t.IsTree)
    (h : Reached p t cache roots taken s) (hn : s.nodes[i]? = some n) {path : Path}
    (hpath : n.path = some path) {b : ByteArray} (hload : t.load path = .ok b) :
    path.moduleName?.isSome := by
  rw [← Node.path_asMet] at hpath
  cases hroot : n.isRoot with
  | true =>
    obtain ⟨root, -, hkey, heq⟩ := h.exists_path_of_isRoot hp hn hroot
    rw [heq] at hpath
    obtain rfl : root = path := Option.some.inj hpath
    have hname : (rootKey? root).isSome := by rw [hkey]; rfl
    rwa [rootKey?, Option.isSome_map] at hname
  | false =>
    obtain ⟨depth, heq⟩ := h.exists_eq_ofHit hp hn hroot
    rw [heq, Node.path_ofHit, Option.map_eq_some_iff] at hpath
    obtain ⟨hit, hhit, rfl⟩ := hpath
    obtain ⟨dir, file, hchild⟩ := SearchPath.exists_child_of_search hp hhit
    rw [hchild] at hload ⊢
    exact FileTree.isSome_moduleName?_of_load ht hload

/-- A module that has dependencies has a file, whose path gives it a name. -/
theorem Reached.path_of_mem_dependencies (hp : p.IgnoresImporter) (ht : t.IsTree)
    (h : Reached p t cache roots taken s) (hn : n ∈ s.toAnalysis.nodes) {d : Dependency}
    (hd : d ∈ n.dependencies) :
    n.path ≠ none ∧ ∀ path, n.path = some path → path.moduleName?.isSome := by
  obtain ⟨n, hold, rfl⟩ := Array.mem_map.1 hn
  obtain ⟨d, hdold, rfl⟩ := List.mem_map.1 hd
  obtain ⟨i, hi⟩ := Array.mem_iff_getElem?.1 hold
  obtain ⟨⟨path, hpath⟩, hsettled⟩ := h.settled_of_mem hi hdold
  have hpath' : (n.paired s.nodes).path = some path := hpath
  rw [hpath']
  refine ⟨Option.some_ne_none path, ?_⟩
  rintro _ ⟨⟩
  obtain ⟨dll, hdll, -⟩ := exists_left_of_forall₂ hsettled.dependencies hdold
  rw [hsettled.importedDlls hpath] at hdll
  cases hload : t.load path with
  | error e =>
    rw [hload] at hdll
    cases hdll
  | ok b => exact h.isSome_moduleName?_of_load hp ht hi hpath hload

end Scan

/-! ### Reports -/

/-- Selecting alike from two related lists keeps them related. -/
theorem forall₂_filter {α β : Type} {r : α → β → Prop} {select : α → Bool} {select' : β → Bool}
    {as : List α} {bs : List β} (hselect : ∀ a b, r a b → select a = select' b)
    (h : List.Forall₂ r as bs) : List.Forall₂ r (as.filter select) (bs.filter select') :=
  List.rel_filter (fun a b hr => iff_of_eq (congrArg (· = true) (hselect a b hr))) h

section Reports

variable {nodes nodes' : Array Node} {n m : Node}

/-- Dependencies that are the same lead to modules of which both were found, or none. -/
theorem Dependency.Alike.isFoundAt_eq {d d' : Dependency} (h : d.Alike nodes nodes' d')
    (hall : ∀ n ∈ nodes, ∀ m ∈ nodes', n.key = m.key → n.path = m.path) :
    isFoundAt nodes d.target = isFoundAt nodes' d'.target := by
  obtain ⟨n, m, hn, hm, hkey⟩ := h.target
  have hpath : n.path = m.path :=
    hall n (Array.mem_of_getElem? hn) m (Array.mem_of_getElem? hm) hkey
  rw [isFoundAt, isFoundAt, hn, hm]
  simp [Node.isFound, hpath]

/-- Modules that are the same miss the same, if they go by the same name. -/
theorem Node.Alike.missing_eq (h : n.Alike nodes nodes' m)
    (hall : ∀ n ∈ nodes, ∀ m ∈ nodes', n.key = m.key → n.path = m.path)
    (hname : n.dependencies ≠ [] → n.displayName = m.displayName) :
    n.missingDlls nodes = m.missingDlls nodes' ∧
      n.missingSymbols nodes = m.missingSymbols nodes' := by
  by_cases hnil : n.dependencies = []
  · have hnil' : m.dependencies = [] := by
      have hall₂ := h.dependencies
      rwa [hnil, List.forall₂_nil_left_iff] at hall₂
    rw [missingDlls, missingDlls, missingSymbols, missingSymbols, hnil, hnil']
    exact ⟨rfl, rfl⟩
  · have hname' := hname hnil
    have hdlls : List.Forall₂ (Dependency.Alike nodes nodes')
        (n.dependencies.filter fun d => !isFoundAt nodes d.target)
        (m.dependencies.filter fun d => !isFoundAt nodes' d.target) :=
      forall₂_filter (fun _ _ hd => by rw [hd.isFoundAt_eq hall]) h.dependencies
    have hsymbols : List.Forall₂ (Dependency.Alike nodes nodes')
        (n.dependencies.filter fun d => isFoundAt nodes d.target)
        (m.dependencies.filter fun d => isFoundAt nodes' d.target) :=
      forall₂_filter (fun _ _ hd => hd.isFoundAt_eq hall) h.dependencies
    constructor
    · exact map_eq_of_forall₂ (hdlls.imp fun _ _ hd => by rw [hname', hd.dllName])
    · rw [missingSymbols, missingSymbols, List.flatMap_def, List.flatMap_def]
      refine congrArg List.flatten (map_eq_of_forall₂ (hsymbols.imp fun _ _ hd => ?_))
      rw [hname', hd.dllName, hd.imports]

end Reports

/-- The report is the same, whatever the order of the roots. -/
theorem Scan.Permuted.check_eq {p : SearchPath} {t : FileTree} {cache cache' : SearchCache}
    {roots roots' : List Path} {taken taken' : List Nat} {s s' : Scan} (ht : t.IsTree)
    (h : Permuted p t cache cache' roots roots' taken taken' s s') :
    s.toAnalysis.check = s'.toAnalysis.check := by
  have hnodup : ∀ {s : Scan} {taken : List Nat}, s.Registered taken →
      (s.toAnalysis.nodes.toList.map Node.key).Nodup := by
    intro s taken hr
    have hkeys := hr.nodup_keys
    simpa [toAnalysis, met, Function.comp_def] using hkeys
  have hpaths : ∀ n ∈ s.toAnalysis.nodes, ∀ m ∈ s'.toAnalysis.nodes, n.key = m.key →
      n.path = m.path := fun n hn m hm hkey => (h.alike_of_key hn hm hkey).path
  have hmissing : ∀ n ∈ s.toAnalysis.nodes.toList, ∀ m ∈ s'.toAnalysis.nodes.toList,
      n.key = m.key → n.missingDlls s.toAnalysis.nodes = m.missingDlls s'.toAnalysis.nodes ∧
        n.missingSymbols s.toAnalysis.nodes = m.missingSymbols s'.toAnalysis.nodes := by
    intro n hn m hm hkey
    rw [Array.mem_toList_iff] at hn hm
    have halike := h.alike_of_key hn hm hkey
    refine halike.missing_eq hpaths fun hne => ?_
    obtain ⟨d, hd⟩ := List.exists_mem_of_ne_nil _ hne
    obtain ⟨hfound, hends⟩ := h.left.path_of_mem_dependencies h.ignores ht hn hd
    exact Node.displayName_congr halike.path hends hfound
  have hleft : ∀ n ∈ s.toAnalysis.nodes.toList,
      ∃ m ∈ s'.toAnalysis.nodes.toList, m.key = n.key := by
    intro n hn
    obtain ⟨m, hm, hkey⟩ := h.exists_toAnalysis_of_key (Array.mem_toList_iff.1 hn)
    exact ⟨m, Array.mem_toList_iff.2 hm, hkey⟩
  have hright : ∀ m ∈ s'.toAnalysis.nodes.toList,
      ∃ n ∈ s.toAnalysis.nodes.toList, n.key = m.key := by
    intro m hm
    obtain ⟨n, hn, hkey⟩ := h.symm.exists_toAnalysis_of_key (Array.mem_toList_iff.1 hm)
    exact ⟨n, Array.mem_toList_iff.2 hn, hkey⟩
  refine Analysis.check_congr ?_ ?_
  · exact perm_flatMap_of_key (hnodup h.left.registered) (hnodup h.right.registered) hleft hright
      fun n hn m hm hkey => (hmissing n hn m hm hkey).1
  · exact perm_flatMap_of_key (hnodup h.left.registered) (hnodup h.right.registered) hleft hright
      fun n hn m hm hkey => (hmissing n hn m hm hkey).2

/-! ### Whole analyses -/

namespace Analysis

/-- The order of the roots does not matter, if no two of them have one name and the search path
ignores importers. The analyses have the same modules, up to their positions and the casing of their
names, and report the same as missing. -/
theorem ofRoots_perm {p : SearchPath} {t : FileTree} {cache cache' c : SearchCache}
    {roots roots' : List Path} {a : Analysis} (hp : p.IgnoresImporter) (ht : t.IsTree)
    (hperm : roots.Perm roots') (hdistinct : (roots.map Scan.rootKey?).Nodup)
    (hcache : cache' = cache ∨ cache' = c) (h : ofRoots p t cache roots = .ok (a, c)) :
    ∃ b c', ofRoots p t cache' roots' = .ok (b, c') ∧
      (∀ key, (∃ n ∈ a.nodes, n.key = key) ↔ ∃ m ∈ b.nodes, m.key = key) ∧
      (∀ n ∈ a.nodes, ∀ m ∈ b.nodes, n.key = m.key → n.Alike a.nodes b.nodes m) ∧
      a.check = b.check := by
  obtain ⟨taken, s, hs, hdone, rfl, rfl⟩ := Scan.exists_finished_of_ofRoots h
  have hagrees : cache.Agrees t cache' := by
    rcases hcache with rfl | rfl
    · exact .refl cache'
    · exact (hs.located hp).agrees.symm
  have hne : roots' ≠ [] := by
    rintro rfl
    rw [List.Perm.eq_nil hperm] at h
    cases h
  have hnames : ∀ path ∈ roots', (Scan.rootKey? path).isSome := by
    intro path hpath
    obtain ⟨-, n, -, -, hkey⟩ := hs.exists_root hp (hperm.mem_iff.2 hpath)
    rw [hkey]
    rfl
  obtain ⟨b, c', h'⟩ := Scan.exists_ofRoots hne hnames p t cache'
  refine ⟨b, c', h', ?_⟩
  obtain ⟨taken', s', hs', hdone', rfl, -⟩ := Scan.exists_finished_of_ofRoots h'
  have hboth : Scan.Permuted p t cache cache' roots roots' taken taken' s s' :=
    ⟨hs, hs', hdone, hdone', hp, hperm, hdistinct, hagrees⟩
  refine ⟨fun key => ⟨?_, ?_⟩, fun n hn m hm hkey => hboth.alike_of_key hn hm hkey,
    hboth.check_eq ht⟩
  · rintro ⟨n, hn, rfl⟩
    exact hboth.exists_toAnalysis_of_key hn
  · rintro ⟨m, hm, rfl⟩
    exact hboth.symm.exists_toAnalysis_of_key hm

/-- The sample program and its DLL import from each other. In either order, nothing is missing. -/
theorem ofRoots_perm_sample :
    ∃ a b c c',
      ofRoots Scan.samplePath Scan.sampleTree .empty [⟨"app.exe"⟩, ⟨"b.dll"⟩] = .ok (a, c) ∧
      ofRoots Scan.samplePath Scan.sampleTree .empty [⟨"b.dll"⟩, ⟨"app.exe"⟩] = .ok (b, c') ∧
      a.check = .empty ∧ a.check = b.check := by
  obtain ⟨⟨a, c⟩, h, hcheck⟩ : ∃ x : Analysis × SearchCache,
      ofRoots Scan.samplePath Scan.sampleTree .empty [⟨"app.exe"⟩, ⟨"b.dll"⟩] = .ok x ∧
        (x.1.check == .empty) = true :=
    Scan.exists_ok_of_any (by decide +kernel)
  have htree : Scan.sampleTree.IsTree := FileTree.isTree_of_forall (by simp [Scan.sampleTree])
  obtain ⟨b, c', h', -, -, heq⟩ := ofRoots_perm (by constructor <;> decide) htree
    (List.Perm.swap ⟨"b.dll"⟩ ⟨"app.exe"⟩ []) (by decide) (.inl rfl) h
  exact ⟨a, b, c, c', h, h', beq_iff_eq.1 hcheck, heq⟩

/-- A known DLL whose path does not end in a name. -/
def namelessPath : SearchPath := ⟨[.knownDlls], some ⟨#["a/.."], ⟨"sys"⟩⟩⟩

/-- Two programs that import from that DLL, under a casing each. -/
def namelessTree : FileTree where
  entries := [(["x.exe"], .file (Scan.sampleImage "A/..")),
    (["y.exe"], .file (Scan.sampleImage "a/.."))]
  workingDir := []

/-- Without a name at the end of its path, a module is reported under the casing of its first
mention, and that does depend on the order of the roots. -/
theorem diagnostics_ne_of_swap :
    KnownDlls.ofNames ["a/.."] ⟨"sys"⟩ = .ok ⟨#["a/.."], ⟨"sys"⟩⟩ ∧
      namelessPath.IgnoresImporter ∧ namelessTree.IsTree ∧
      (namelessTree.entries.map fun e => e.1.map fun name =>
        name.text?.map Text.lowercase).Nodup ∧
      ([⟨"x.exe"⟩, ⟨"y.exe"⟩].map Scan.rootKey?).Nodup ∧
      ∃ a b c c',
        ofRoots namelessPath namelessTree .empty [⟨"x.exe"⟩, ⟨"y.exe"⟩] = .ok (a, c) ∧
        ofRoots namelessPath namelessTree .empty [⟨"y.exe"⟩, ⟨"x.exe"⟩] = .ok (b, c') ∧
        ∃ n ∈ a.nodes, ∃ m ∈ b.nodes, n.key = m.key ∧ n.diagnostics ≠ m.diagnostics := by
  refine ⟨by decide +kernel, by constructor <;> decide,
    FileTree.isTree_of_forall (by simp [namelessTree]), by decide +kernel, by decide +kernel, ?_⟩
  obtain ⟨⟨a, c⟩, h, htest⟩ : ∃ x : Analysis × SearchCache,
      ofRoots namelessPath namelessTree .empty [⟨"x.exe"⟩, ⟨"y.exe"⟩] = .ok x ∧
        x.1.nodes[2]?.any (fun n =>
          n.key == "a/.." && n.diagnostics.map (·.moduleName) == ["A/.."]) = true :=
    Scan.exists_ok_of_any (by decide +kernel)
  obtain ⟨⟨b, c'⟩, h', htest'⟩ : ∃ x : Analysis × SearchCache,
      ofRoots namelessPath namelessTree .empty [⟨"y.exe"⟩, ⟨"x.exe"⟩] = .ok x ∧
        x.1.nodes[2]?.any (fun n =>
          n.key == "a/.." && n.diagnostics.map (·.moduleName) == ["a/.."]) = true :=
    Scan.exists_ok_of_any (by decide +kernel)
  obtain ⟨n, hn, hnsays⟩ := (Option.any_eq_true _ _).1 htest
  obtain ⟨m, hm, hmsays⟩ := (Option.any_eq_true _ _).1 htest'
  rw [Bool.and_eq_true, beq_iff_eq, beq_iff_eq] at hnsays hmsays
  refine ⟨a, b, c, c', h, h', n, Array.mem_of_getElem? hn, m, Array.mem_of_getElem? hm,
    hnsays.1.trans hmsays.1.symm, fun heq => ?_⟩
  have hnames : ["A/.."] = ["a/.."] := by rw [← hnsays.2, heq, hmsays.2]
  exact absurd hnames (by decide)

end Analysis

end DllGraph
