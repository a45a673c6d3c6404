import DllGraph.Proofs.Scan.Termination
import Mathlib.Order.Bounds.Defs

/-!
# Depth Is Distance

A scan gives a module its depth when the module is first mentioned, and never changes it. Since
modules are read in the order in which they were met, the depth is the length of a shortest path
of dependencies from a root, however many other paths, cycles and missing DLLs there are.

The invariant (`Scan.Layered`) is that of breadth-first search. Depths ascend along the modules, so
they ascend along the queue, and no module is more than one layer below the head of the queue.

## Main definitions

* `DependsOn` and `Walk`, dependencies and paths of them;
* `Scan.Layered`, the invariant.

## Main results

* `Scan.Layered.le_of_walk` and `Scan.Layered.exists_walk` — no path to a module is shorter than
  its depth, and some path is as short;
* `Analysis.depth_isLeast` — the depth is the distance from the roots.
-/

namespace DllGraph

/-- The module at a position imports from the one at another position. -/
def DependsOn (nodes : Array Node) (i j : Nat) : Prop :=
  ∃ n : Node, nodes[i]? = some n ∧ ∃ d ∈ n.dependencies, d.target = j

/-- A path of so many dependencies from one module to another. -/
inductive Walk (nodes : Array Node) (i : Nat) : Nat → Nat → Prop
  | nil : Walk nodes i 0 i
  | snoc {k j l : Nat} : Walk nodes i k j → DependsOn nodes j l → Walk nodes i (k + 1) l

/-- In a list of which any two elements are related, so are those at two positions. -/
theorem rel_of_pairwise {α : Type} {r : α → α → Prop} {as : List α} (h : as.Pairwise r)
    {i j : Nat} {a b : α} (hij : i < j) (hi : as[i]? = some a) (hj : as[j]? = some b) : r a b := by
  obtain ⟨hilt, rfl⟩ := List.getElem?_eq_some_iff.1 hi
  obtain ⟨hjlt, rfl⟩ := List.getElem?_eq_some_iff.1 hj
  exact List.pairwise_iff_getElem.1 h i j hilt hjlt hij

namespace Scan

variable {p : SearchPath} {t : FileTree} {cache : SearchCache} {given : List Path}
  {taken queue : List Nat} {id : Nat} {n : Node} {path : Path} {s s' : Scan}

/-- The modules of a scan lie in layers: those of one depth follow each other, and the layers that
wait in the queue are two neighbouring ones at most. -/
structure Layered (s : Scan) : Prop where
  sorted : s.met.Pairwise (·.depth ≤ ·.depth)
  /-- Whatever has been met lies at most one layer below whatever waits. -/
  span : ∀ {i : Nat} {m : Node}, i ∈ s.queue → s.met[i]? = some m →
    ∀ n ∈ s.met, n.depth ≤ m.depth + 1
  /-- A dependency leads at most one layer down. -/
  edge : ∀ {i : Nat} {n m : Node} {d : Dependency}, s.nodes[i]? = some n → d ∈ n.dependencies →
    s.met[d.target]? = some m → m.depth ≤ n.depth + 1
  /-- A module that is not a root was met one layer below some module that imports it. -/
  parent : ∀ {j : Nat} {m : Node}, s.met[j]? = some m → m.isRoot = false →
    ∃ (i : Nat) (n : Node), s.nodes[i]? = some n ∧ (∃ d ∈ n.dependencies, d.target = j) ∧
      m.depth = n.depth + 1

namespace Layered

/-- Nothing is queued yet. -/
theorem empty : (Scan.empty cache).Layered where
  sorted := .nil
  span := by simp [Scan.empty]
  edge := by simp [Scan.empty]
  parent := by simp [Scan.empty, met]

/-- Roots are the first layer. -/
theorem addRoot (h : s.Layered) (hr : s.Registered []) (hf : s.Filled t [])
    (ha : s.addRoot path = .ok s') : s'.Layered := by
  obtain ⟨name, -, ⟨-, rfl⟩ | hadds⟩ := hr.addRoot_cases ha
  · exact h
  have hzero : ∀ n ∈ s'.met, n.isRoot = true ∧ n.depth = 0 := by
    intro n hn
    rw [hadds.met, List.mem_append, List.mem_singleton] at hn
    rcases hn with hn | rfl
    · have hroot := hr.rootsFirst rfl n hn
      exact ⟨hroot, (hr.rootMet n hn hroot).1⟩
    · exact ⟨rfl, rfl⟩
  constructor
  · refine List.pairwise_iff_forall_sublist.2 fun {a b} hab => ?_
    rw [(hzero a (hab.subset (by simp))).2]
    exact Nat.zero_le _
  · intro i m _ _ n hn
    rw [(hzero n hn).2]
    exact Nat.zero_le _
  · intro i n m d _ _ hm
    rw [(hzero m (List.mem_of_getElem? hm)).2]
    exact Nat.zero_le _
  · intro j m hm hroot
    rw [(hzero m (List.mem_of_getElem? hm)).1] at hroot
    cases hroot

/-- A step reads a module of the upper layer that waits, and adds modules to the layer below. -/
theorem step (h : s.Layered) (hr : Reached p t cache given taken s) (hq : s.queue = id :: queue)
    (hs : s.step p t = some s') : s'.Layered := by
  have hr' : s'.Registered (taken ++ [id]) := hr.registered.step hq hs
  obtain ⟨n, dependencies, fresh, hreads⟩ := hr.registered.reads_step hq hs
  have hn : s.met[id]? = some n.asMet := getElem?_met_of_nodes hreads.old
  have hn' : s'.met[id]? = some n.asMet := by
    rw [hreads.met, List.getElem?_append_left (List.getElem?_eq_some_iff.1 hn).1, hn]
  have hfresh : ∀ m ∈ fresh.map Node.asMet, m.depth = n.depth + 1 ∧ m.isRoot = false := by
    simp only [List.mem_map]
    rintro _ ⟨m, hm, rfl⟩
    obtain ⟨name, hit, rfl⟩ := hreads.fresh m hm
    simp
  -- Nothing lies deeper than one layer below the module that is read.
  have hspan : ∀ m ∈ s'.met, m.depth ≤ n.depth + 1 := by
    intro m hm
    rw [hreads.met] at hm
    rcases List.mem_append.1 hm with hm | hm
    · exact h.span (by rw [hq]; exact List.mem_cons_self ..) hn m hm
    · exact Nat.le_of_eq (hfresh m hm).1
  have hsorted : s'.met.Pairwise (·.depth ≤ ·.depth) := by
    rw [hreads.met, List.pairwise_append]
    refine ⟨h.sorted, List.pairwise_iff_forall_sublist.2 fun {a b} hab => ?_, ?_⟩
    · have ha := (hfresh a (hab.subset (by simp))).1
      have hb := (hfresh b (hab.subset (by simp))).1
      exact Nat.le_of_eq (ha.trans hb.symm)
    · intro a ha b hb
      rw [(hfresh b hb).1]
      exact hspan a (by rw [hreads.met]; exact List.mem_append_left _ ha)
  constructor
  · exact hsorted
  · -- What still waits comes after the module that is read.
    intro i m hi hm b hb
    have hlt : id < i := hr'.lt_of_mem (by simp) hi
    have hle : n.asMet.depth ≤ m.depth := rel_of_pairwise hsorted hlt hn' hm
    exact Nat.le_trans (hspan b hb) (Nat.succ_le_succ hle)
  · intro i a m d ha hd hm
    rcases hreads.cases ha with ⟨-, rfl⟩ | ⟨-, ha⟩ | ha
    · -- The dependencies of the module that is read lead to any layer there is.
      rw [Node.connected, Node.depth_read]
      exact hspan m (List.mem_of_getElem? hm)
    · -- Those of other modules lead where they led before.
      obtain ⟨b, hb, -⟩ := hr.exists_target (Array.mem_of_getElem? ha) hd
      have hb' : s.met[d.target]? = some b.asMet := getElem?_met_of_nodes hb
      rw [hreads.met, List.getElem?_append_left (List.getElem?_eq_some_iff.1 hb').1] at hm
      exact h.edge ha hd hm
    · obtain ⟨name, hit, rfl⟩ := hreads.fresh a ha
      rw [← Node.asMet_ofHit] at hd
      cases hd
  · intro j m hm hroot
    by_cases hj : j < s.met.length
    · -- The importer that is known for an old module has been read before.
      rw [hreads.met, List.getElem?_append_left hj] at hm
      obtain ⟨i, a, ha, ⟨d, hd, htarget⟩, hdepth⟩ := h.parent hm hroot
      have hi : i ≠ id := by
        rintro rfl
        have hwaits : i ∈ s.queue := by rw [hq]; exact List.mem_cons_self ..
        exact hr.registered.not_mem_taken hwaits (hr.filled.mem_taken ha hd)
      exact ⟨i, a, hreads.getElem?_of_ne hi ha, ⟨d, hd, htarget⟩, hdepth⟩
    · have hlt : j < s'.met.length := (List.getElem?_eq_some_iff.1 hm).1
      rw [length_met] at hj hlt
      obtain ⟨d, hd, htarget⟩ := hreads.targets j (Nat.not_lt.1 hj) hlt
      rw [hreads.met, List.getElem?_append_right (by rw [length_met]; exact Nat.not_lt.1 hj)] at hm
      refine ⟨id, _, hreads.getElem?_self, ⟨d, hd, htarget⟩, ?_⟩
      rw [(hfresh m (List.mem_of_getElem? hm)).1, Node.connected, Node.depth_read]

end Layered

/-- A scan is layered at any time. -/
theorem Reached.layered (h : Reached p t cache given taken s) : s.Layered := by
  induction h with
  | empty => exact .empty
  | addRoot h ha ih => exact ih.addRoot h.registered h.filled ha
  | step h hq hs ih => exact ih.step h hq hs

/-! ### Paths -/

namespace Layered

/-- No path from a root is shorter than the depth of the module that it leads to. -/
theorem le_of_walk (h : s.Layered) (hr : s.Registered taken) {r k j : Nat} (hroot : r ∈ s.roots)
    (hw : Walk s.nodes r k j) {m : Node} (hm : s.nodes[j]? = some m) : m.depth ≤ k := by
  induction hw generalizing m with
  | nil =>
    obtain ⟨n, hn, hnroot⟩ := hr.mem_roots_iff.1 hroot
    obtain rfl : n = m := Option.some.inj (hn.symm.trans hm)
    have hmem : n.asMet ∈ s.met := asMet_mem_met (Array.mem_of_getElem? hn)
    exact Nat.le_of_eq (hr.rootMet _ hmem hnroot).1
  | snoc _ hedge ih =>
    obtain ⟨n, hn, d, hd, rfl⟩ := hedge
    have hmet : s.met[d.target]? = some m.asMet := getElem?_met_of_nodes hm
    have hle : m.asMet.depth ≤ n.depth + 1 := h.edge hn hd hmet
    exact Nat.le_trans hle (Nat.succ_le_succ (ih hn))

/-- Every module is reached from a root on a path as long as it is deep. -/
theorem exists_walk (h : s.Layered) (hr : s.Registered taken) {j : Nat} {m : Node}
    (hm : s.nodes[j]? = some m) : ∃ r ∈ s.roots, Walk s.nodes r m.depth j := by
  induction hk : m.depth using Nat.strongRecOn generalizing j m with
  | ind k ih =>
    have hmet : s.met[j]? = some m.asMet := getElem?_met_of_nodes hm
    cases hroot : m.isRoot with
    | true =>
      have hzero : m.depth = 0 := (hr.rootMet _ (List.mem_of_getElem? hmet) hroot).1
      refine ⟨j, hr.mem_roots_iff.2 ⟨m, hm, hroot⟩, ?_⟩
      rw [← hk, hzero]
      exact .nil
    | false =>
      obtain ⟨i, n, hn, hedge, hdepth⟩ := h.parent hmet hroot
      rw [Node.depth_asMet, hk] at hdepth
      subst hdepth
      obtain ⟨r, hr, hw⟩ := ih n.depth (Nat.lt_succ_self _) hn rfl
      exact ⟨r, hr, hw.snoc ⟨n, hn, hedge⟩⟩

/-- The roots are the modules of depth zero. -/
theorem depth_eq_zero_iff (h : s.Layered) (hr : s.Registered taken) {j : Nat} {m : Node}
    (hm : s.nodes[j]? = some m) : m.depth = 0 ↔ j ∈ s.roots := by
  constructor
  · intro hzero
    obtain ⟨r, hroot, hw⟩ := h.exists_walk hr hm
    rw [hzero] at hw
    cases hw
    exact hroot
  · intro hroot
    exact Nat.le_zero.1 (h.le_of_walk hr hroot .nil hm)

end Layered

end Scan

/-! ### Analyses -/

/-- The result has the dependencies of the scan. -/
theorem dependsOn_toAnalysis (s : Scan) {i j : Nat} :
    DependsOn s.toAnalysis.nodes i j ↔ DependsOn s.nodes i j := by
  simp [DependsOn, Scan.getElem?_toAnalysis, Node.paired, Dependency.paired]

/-- The result has the walks of the scan. -/
theorem walk_toAnalysis (s : Scan) {i k j : Nat} :
    Walk s.toAnalysis.nodes i k j ↔ Walk s.nodes i k j := by
  constructor
  · intro h
    induction h with
    | nil => exact .nil
    | snoc _ hedge ih => exact ih.snoc ((dependsOn_toAnalysis s).1 hedge)
  · intro h
    induction h with
    | nil => exact .nil
    | snoc _ hedge ih => exact ih.snoc ((dependsOn_toAnalysis s).2 hedge)

/-- The depth of a module is the number of dependencies on a shortest path from a root, and zero
for the roots alone. Depths ascend along the modules, which are therefore in order of depth. -/
theorem Analysis.depth_isLeast {p : SearchPath} {t : FileTree} {cache c : SearchCache}
    {roots : List Path} {a : Analysis} (h : Analysis.ofRoots p t cache roots = .ok (a, c)) :
    (∀ (id : Nat) (n : Node), a.nodes[id]? = some n →
      IsLeast {k | ∃ r ∈ a.roots, Walk a.nodes r k id} n.depth ∧ (n.depth = 0 ↔ id ∈ a.roots)) ∧
    a.nodes.toList.Pairwise (·.depth ≤ ·.depth) ∧ a.byDepth = a.nodes.toList := by
  obtain ⟨taken, s, hs, -, rfl, -⟩ := Scan.exists_finished_of_ofRoots h
  have hsorted : s.toAnalysis.nodes.toList.Pairwise (·.depth ≤ ·.depth) := by
    have hmet := hs.layered.sorted
    rw [Scan.met, List.pairwise_map] at hmet
    have hmap : s.toAnalysis.nodes.toList = s.nodes.toList.map (Node.paired s.nodes) := by
      simp [Scan.toAnalysis]
    rw [hmap, List.pairwise_map]
    exact hmet
  refine ⟨fun id n hn => ?_, hsorted, List.mergeSort_of_pairwise ?_⟩
  · rw [Scan.getElem?_toAnalysis, Option.map_eq_some_iff] at hn
    obtain ⟨m, hm, rfl⟩ := hn
    have hroots : s.toAnalysis.roots = s.roots := rfl
    have hdepth : (m.paired s.nodes).depth = m.depth := rfl
    simp only [walk_toAnalysis, hroots, hdepth]
    refine ⟨⟨hs.layered.exists_walk hs.registered hm, ?_⟩,
      hs.layered.depth_eq_zero_iff hs.registered hm⟩
    rintro k ⟨r, hr, hw⟩
    exact hs.layered.le_of_walk hs.registered hr hw hm
  · exact hsorted.imp fun hle => by simpa using hle

/-- The sample program is the root, and imports a DLL that lies one layer below it. -/
theorem Analysis.depth_isLeast_sample :
    ∃ a c, Analysis.ofRoots Scan.samplePath Scan.sampleTree .empty [⟨"app.exe"⟩] = .ok (a, c) ∧
      ∃ n, a.nodes[1]? = some n ∧ n.depth = 1 ∧
        IsLeast {k | ∃ r ∈ a.roots, Walk a.nodes r k 1} n.depth := by
  obtain ⟨⟨a, c⟩, h, htest⟩ : ∃ x : Analysis × SearchCache,
      Analysis.ofRoots Scan.samplePath Scan.sampleTree .empty [⟨"app.exe"⟩] = .ok x ∧
        x.1.nodes[1]?.any (·.depth == 1) = true :=
    Scan.exists_ok_of_any (by decide +kernel)
  obtain ⟨n, hn, hdepth⟩ := (Option.any_eq_true _ _).1 htest
  exact ⟨a, c, h, n, hn, beq_iff_eq.1 hdepth, ((Analysis.depth_isLeast h).1 1 n hn).1⟩

end DllGraph
