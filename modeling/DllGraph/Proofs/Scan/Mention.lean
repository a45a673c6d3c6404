import DllGraph.Proofs.Lookup
import DllGraph.Proofs.Scan.Depth
import DllGraph.Proofs.Scan.Roots

/-!
# The First Mention Decides

A module that is not a root is looked up when its name is met for the first time, and never again.
Which module that mentions it is the first one can be read off the finished graph: of all modules
that depend on it, the one that comes first, and of the dependencies of that one on it, the first
(`FirstMention`). Its name is spelled, and its file found, as this dependency and this importer had
it. What others call it, and where they would have found it, does not matter, not even if it was not
found at all.

The invariant (`Scan.Mentioned`) goes with the order in which modules are read. They are read in the
order in which they were met, so whatever mentions a module first has been read before all others
that mention it.

## Main definitions

* `FirstMention`, the dependency that mentions a module first;
* `SearchedFor`, that a module is what is found for a dependency;
* `Scan.Mentioned`, that a module is what was found for its first mention.

## Main results

* `FirstMention.unique` — a module has one first mention at most;
* `Scan.Reached.traced` — in every state that a scan passes through, the modules are what was found
  for their first mentions;
* `Analysis.found_of_firstMention` — so they are in an analysis, and looking up a module again in
  the name of its first importer gives the same file.
-/

namespace DllGraph

/-! ### First mentions -/

/-- Of all dependencies on the module at position `j`, this one comes first: it is the first one of
module `m` at position `i`, and no module before that one has any. -/
structure FirstMention (nodes : Array Node) (j i : Nat) (m : Node) (d : Dependency) : Prop where
  importer : nodes[i]? = some m
  dependency : m.dependencies.find? (·.target = j) = some d
  first : ∀ i' < i, ¬ DependsOn nodes i' j

namespace FirstMention

variable {nodes : Array Node} {j i i' : Nat} {m m' : Node} {d d' : Dependency}

/-- The dependency that mentions a module first is one of its importer. -/
theorem mem (h : FirstMention nodes j i m d) : d ∈ m.dependencies :=
  List.mem_of_find?_eq_some h.dependency

/-- The dependency that mentions a module first leads to the module. -/
theorem target (h : FirstMention nodes j i m d) : d.target = j := by
  simpa using List.find?_some h.dependency

/-- The importer that mentions a module first depends on it. -/
theorem dependsOn (h : FirstMention nodes j i m d) : DependsOn nodes i j :=
  ⟨m, h.importer, d, h.mem, h.target⟩

/-- A module has one first mention at most. -/
theorem unique (h : FirstMention nodes j i m d) (h' : FirstMention nodes j i' m' d') :
    i = i' ∧ m = m' ∧ d = d' := by
  obtain rfl : i = i' := by
    rcases Nat.lt_trichotomy i i' with hlt | heq | hlt
    · exact absurd h.dependsOn (h'.first i hlt)
    · exact heq
    · exact absurd h'.dependsOn (h.first i' hlt)
  obtain rfl : m = m' := Option.some.inj (h.importer.symm.trans h'.importer)
  exact ⟨rfl, rfl, Option.some.inj (h.dependency.symm.trans h'.dependency)⟩

end FirstMention

/-- The module has the name of a dependency, as it is spelled there, and is what the search path
finds under that name for the module that has the dependency. Everything that is read to find it has
been read before. -/
structure SearchedFor (p : SearchPath) (t : FileTree) (c : SearchCache) (m : Node) (d : Dependency)
    (n : Node) : Prop where
  name : n.name = d.dllName
  found : ∃ path hit, m.path = some path ∧ p.search t d.dllName path c = (hit, c) ∧
    n.location = hit.map (·.location) ∧ n.path = hit.map (·.path)

namespace Scan

variable {p : SearchPath} {t : FileTree} {cache : SearchCache} {given : List Path}
  {taken queue : List Nat} {id j i : Nat} {n m : Node} {d : Dependency} {importer : Path}
  {depth : Nat} {dlls : List ImportedDll} {s s' : Scan}

/-! ### Connecting a module -/

/-- Connecting to some DLLs forgets nothing. -/
theorem remembers_connect (s : Scan) (dlls : List ImportedDll) :
    (s.connect p t importer depth dlls).2.cache.Remembers s.cache := by
  refine connect_preserves (P := fun s' => s'.cache.Remembers s.cache) ?_ (.refl s.cache)
  intro s₁ s₂ dll _ _ hcache h
  rw [hcache]
  exact (p.remembers_search t dll.name importer s₁.cache).trans h

/-- What a module is met with is found for a dependency, and what was read for that is
remembered. -/
def FoundFor (p : SearchPath) (t : FileTree) (importer : Path) (depth : Nat) (d : Dependency)
    (c : SearchCache) (n : Node) : Prop :=
  ∃ before, c.Remembers (p.search t d.dllName importer before).2 ∧
    n.asMet = .ofHit d.dllName depth (p.search t d.dllName importer before).1

/-- What was found for a dependency would be found with a cache that remembers more. -/
theorem FoundFor.mono {c c' : SearchCache} (h : FoundFor p t importer depth d c n)
    (hc : c'.Remembers c) : FoundFor p t importer depth d c' n := by
  obtain ⟨before, hbefore, hn⟩ := h
  exact ⟨before, hc.trans hbefore, hn⟩

/-- Every module that is added while a module is connected is what is found for the first dependency
on it. -/
theorem exists_foundFor_connect (hr : s.Registered taken) (htaken : taken ≠ [])
    (dlls : List ImportedDll) (hold : s.nodes.size ≤ j)
    (hj : j < (s.connect p t importer depth dlls).2.nodes.size) :
    ∃ d n, (s.connect p t importer depth dlls).1.find? (·.target = j) = some d ∧
      (s.connect p t importer depth dlls).2.nodes[j]? = some n ∧
      FoundFor p t importer depth d (s.connect p t importer depth dlls).2.cache n := by
  induction dlls generalizing s with
  | nil => exact absurd hj (Nat.not_lt.2 hold)
  | cons dll rest ih =>
    have hdependencies : (s.connect p t importer depth (dll :: rest)).1 =
        ⟨dll.name, (s.resolve p t importer depth dll.name).1, dll.delayLoad,
          dll.symbols.map .unmatched⟩ ::
          ((s.resolve p t importer depth dll.name).2.connect p t importer depth rest).1 := rfl
    have hscan : (s.connect p t importer depth (dll :: rest)).2 =
        ((s.resolve p t importer depth dll.name).2.connect p t importer depth rest).2 := rfl
    rw [hscan] at hj ⊢
    rw [hdependencies, List.find?_cons]
    cases h : s.idOf? dll.name with
    | some known =>
      -- A dependency on a module that was there before is none on the one at `j`.
      rw [resolve_of_known h] at hj ⊢
      obtain ⟨a, ha, -⟩ := hr.idOf?_eq_some_iff.1 h
      have hne : known ≠ j :=
        Nat.ne_of_lt (Nat.lt_of_lt_of_le (Array.getElem?_eq_some_iff.1 ha).1 hold)
      rw [decide_eq_false hne]
      exact ih hr hold hj
    | none =>
      have hadds : s.Adds (.ofHit dll.name depth (p.search t dll.name importer s.cache).1)
          (s.resolve p t importer depth dll.name).2 := adds_resolve h
      rw [resolve_fst_of_new h]
      by_cases heq : s.nodes.size = j
      · subst heq
        rw [decide_eq_true rfl]
        refine ⟨_, _, rfl, (grows_connect _ rest).getElem? ?_, s.cache, ?_, Node.asMet_ofHit⟩
        · rw [hadds.getElem?, if_pos rfl]
        · rw [← cache_resolve h]
          exact remembers_connect _ rest
      · rw [decide_eq_false heq]
        refine ih (hr.add hadds (by simp) fun hnil => absurd hnil htaken) ?_ hj
        rw [hadds.nodes, Array.size_push]
        omega

/-! ### Modules of a scan -/

/-- The module is what was found for the dependency that mentions it first. -/
structure Mentioned (p : SearchPath) (t : FileTree) (s : Scan) (j i : Nat) (n m : Node)
    (d : Dependency) : Prop where
  first : FirstMention s.nodes j i m d
  lt : i < j
  found : ∃ path, m.path = some path ∧ FoundFor p t path (m.depth + 1) d s.cache n

/-- What was found for a dependency is found again, by asking in the name of the importer. -/
theorem Mentioned.searchedFor (h : Mentioned p t s j i n m d) : SearchedFor p t s.cache m d n := by
  obtain ⟨path, hpath, before, hbefore, hn⟩ := h.found
  refine ⟨?_, path, _, hpath, SearchPath.search_of_remembers hbefore, ?_, ?_⟩
  · exact (congrArg Node.name hn).trans Node.name_ofHit
  · exact (congrArg Node.location hn).trans Node.location_ofHit
  · exact (congrArg Node.path hn).trans Node.path_ofHit

/-- A module that is no root was met through its first mention. -/
def Traced (p : SearchPath) (t : FileTree) (s : Scan) : Prop :=
  ∀ {j : Nat} {n : Node}, s.met[j]? = some n → n.isRoot = false →
    ∃ i m d, Mentioned p t s j i n m d

/-- Reading a module brings no new mention of any other one that was mentioned before it. -/
theorem Reads.dependsOn {dependencies : List Dependency} {fresh : List Node}
    (h : s.Reads t id n dependencies fresh s') (hi : i ≠ id) (hdepends : DependsOn s'.nodes i j) :
    DependsOn s.nodes i j := by
  obtain ⟨m, hm, d, hd, htarget⟩ := hdepends
  rcases h.cases hm with ⟨heq, -⟩ | ⟨-, hm⟩ | hm
  · exact absurd heq hi
  · exact ⟨m, hm, d, hd, htarget⟩
  · obtain ⟨name, hit, rfl⟩ := h.fresh m hm
    rw [← Node.asMet_ofHit] at hd
    cases hd

namespace Traced

/-- No module has been mentioned yet. -/
theorem empty : Traced p t (.empty cache) := by
  simp [Traced, Scan.empty, met]

/-- A root is not mentioned by anything. -/
theorem addRoot {path : Path} (hr : s.Registered []) (ha : s.addRoot path = .ok s') :
    Traced p t s' := by
  intro j n hn hroot
  rw [(hr.addRoot ha).rootsFirst rfl n (List.mem_of_getElem? hn)] at hroot
  cases hroot

/-- A step reads a module that comes after all importers that are known by then, and is the first
importer of all modules that it adds. -/
theorem step (h : Traced p t s) (hr : Reached p t cache given taken s) (hq : s.queue = id :: queue)
    (hs : s.step p t = some s') : Traced p t s' := by
  obtain ⟨n, path, hn, hpath, rfl⟩ := hr.registered.step_cases hq hs
  obtain ⟨fresh, hreads⟩ := reads_connectAt (p := p) (t := t) queue path hn
  intro j a ha hroot
  by_cases hj : j < s.met.length
  · -- The first importer of an old module has been read before.
    rw [hreads.met, List.getElem?_append_left hj] at ha
    obtain ⟨i, m, d, hfirst, hlt, hfound⟩ := h ha hroot
    have hi : i < id := hr.registered.lt_of_mem
      (hr.filled.mem_taken hfirst.importer hfirst.mem) (by rw [hq]; exact List.mem_cons_self ..)
    refine ⟨i, m, d, ⟨?_, hfirst.dependency, fun i' hi' hdepends => ?_⟩, hlt, ?_⟩
    · exact hreads.getElem?_of_ne (Nat.ne_of_lt hi) hfirst.importer
    · exact hfirst.first i' hi' (hreads.dependsOn (Nat.ne_of_lt (Nat.lt_trans hi' hi)) hdepends)
    · obtain ⟨folder, hfolder, hhit⟩ := hfound
      exact ⟨folder, hfolder, hhit.mono (remembers_connect _ _)⟩
  · -- The importer of a new module is the module that is read.
    rw [length_met, Nat.not_lt] at hj
    have hlt := (List.getElem?_eq_some_iff.1 ha).1
    rw [length_met, settle, Array.size_setIfInBounds] at hlt
    obtain ⟨d, b, hd, hb, hfound⟩ :=
      exists_foundFor_connect (hr.registered.take hq) (by simp) _ hj hlt
    have hid : id < s.nodes.size := (Array.getElem?_eq_some_iff.1 hn).1
    have hidj : id < j := Nat.lt_of_lt_of_le hid hj
    refine ⟨id, _, d, ⟨hreads.getElem?_self, hd, fun i hi hdepends => ?_⟩, hidj, ?_⟩
    · obtain ⟨m, hm, e, he, htarget⟩ := hreads.dependsOn (Nat.ne_of_lt hi) hdepends
      obtain ⟨b, hb, -⟩ := hr.exists_target (Array.mem_of_getElem? hm) he
      rw [htarget] at hb
      exact absurd (Array.getElem?_eq_some_iff.1 hb).1 (Nat.not_lt.2 hj)
    · refine ⟨path, ?_, ?_⟩
      · rw [← Node.path_asMet, Node.asMet_connected, Node.path_asMet, hpath]
      · have hmet : (s.connectAt p t queue path n).2.met[j]? = some b.asMet :=
          getElem?_met_of_nodes hb
        have hn' : (s.connectAt p t queue path n).2.nodes[id]? = some n :=
          (grows_connect { s with queue } _).getElem? hn
        rw [met_settle hn' (by simp), hmet, Option.some.injEq] at ha
        rw [Node.connected, Node.depth_read, ← ha]
        exact hfound

end Traced

/-- In every state that a scan passes through, a module that is no root is what was found for its
first mention. -/
theorem Reached.traced (h : Reached p t cache given taken s) : Traced p t s := by
  induction h with
  | empty => exact Traced.empty
  | addRoot h ha _ => exact Traced.addRoot h.registered ha
  | step h hq hs ih => exact Traced.step ih h hq hs

end Scan

/-! ### Modules of an analysis -/

/-- Matching imports leaves first mentions what they are. -/
theorem FirstMention.toAnalysis {s : Scan} {j i : Nat} {m : Node} {d : Dependency}
    (h : FirstMention s.nodes j i m d) :
    FirstMention s.toAnalysis.nodes j i (m.paired s.nodes)
      (d.paired (exportsAt s.nodes d.target)) where
  importer := by
    rw [Scan.getElem?_toAnalysis, h.importer]
    rfl
  dependency := by
    have hfind := h.dependency
    simp only [Node.paired, List.find?_map, Function.comp_def, Dependency.paired] at hfind ⊢
    rw [hfind]
    rfl
  first := by
    intro i' hi hdepends
    exact h.first i' hi ((dependsOn_toAnalysis s).1 hdepends)

namespace Analysis

variable {p : SearchPath} {t : FileTree} {cache c : SearchCache} {roots : List Path} {a : Analysis}

/-- A module that is no root has the name by which it is mentioned first, and was found, or not
found, as the search path finds that name for the module that mentions it. A root is at the first
path that was given for its name, and whatever imports from a DLL of that name depends on the
root. -/
theorem found_of_firstMention (h : ofRoots p t cache roots = .ok (a, c)) :
    (∀ (j : Nat) (n : Node), a.nodes[j]? = some n → n.isRoot = false →
      (∃ i m d, FirstMention a.nodes j i m d) ∧
      ∀ i m d, FirstMention a.nodes j i m d → i < j ∧ SearchedFor p t c m d n) ∧
    (∀ (j : Nat) (n : Node), a.nodes[j]? = some n → n.isRoot = true →
      (∃ path, roots.find? (Scan.rootKey? · = some n.key) = some path ∧
        path.moduleName? = some n.name ∧ n.path = some path ∧ n.location = none) ∧
      ∀ m ∈ a.nodes, ∀ d ∈ m.dependencies, Text.lowercase d.dllName = n.key → d.target = j) ∧
    ∀ path ∈ roots, ∃ n ∈ a.nodes, n.isRoot = true ∧ Scan.rootKey? path = some n.key := by
  obtain ⟨taken, s, hs, -, rfl, rfl⟩ := Scan.exists_finished_of_ofRoots h
  refine ⟨fun j n hn hroot => ?_, fun j n hn hroot => ⟨?_, fun m hm d hd hkey => ?_⟩,
    fun path hpath => ?_⟩
  · rw [Scan.getElem?_toAnalysis, Option.map_eq_some_iff] at hn
    obtain ⟨n, hn, rfl⟩ := hn
    obtain ⟨i, m, d, hmentioned⟩ := hs.traced (Scan.getElem?_met_of_nodes hn) hroot
    refine ⟨⟨i, _, _, hmentioned.first.toAnalysis⟩, fun i' m' d' h' => ?_⟩
    obtain ⟨rfl, rfl, rfl⟩ := hmentioned.first.toAnalysis.unique h'
    obtain ⟨hname, hfound⟩ := hmentioned.searchedFor
    exact ⟨hmentioned.lt, hname, hfound⟩
  · rw [Scan.getElem?_toAnalysis, Option.map_eq_some_iff] at hn
    obtain ⟨n, hn, rfl⟩ := hn
    obtain ⟨path, hfirst, hname, hmet⟩ :=
      hs.rooted.first _ (Scan.asMet_mem_met (Array.mem_of_getElem? hn)) hroot
    exact ⟨path, hfirst, hname, congrArg Node.path hmet, congrArg Node.location hmet⟩
  · rw [Scan.getElem?_toAnalysis, Option.map_eq_some_iff] at hn
    obtain ⟨n, hn, rfl⟩ := hn
    obtain ⟨m, hold, rfl⟩ := Array.mem_map.1 hm
    obtain ⟨d, hdold, rfl⟩ := List.mem_map.1 hd
    obtain ⟨b, hb, hbkey⟩ := hs.exists_target hold hdold
    exact hs.registered.eq_of_key hb hn (hbkey.trans hkey)
  · obtain ⟨m, hm, hroot, hkey⟩ := hs.rooted.given path hpath
    obtain ⟨n, hn, rfl⟩ := List.mem_map.1 hm
    exact ⟨n.paired s.nodes, Array.mem_map_of_mem (Array.mem_toList_iff.1 hn), hroot, hkey⟩

/-- The DLL of the sample program was found for the program. The program, which the DLL imports from
in turn, is where it was given. -/
theorem found_of_firstMention_sample :
    ∃ a c, ofRoots Scan.samplePath Scan.sampleTree .empty [⟨"app.exe"⟩] = .ok (a, c) ∧
      (∃ n m d, a.nodes[1]? = some n ∧ FirstMention a.nodes 1 0 m d ∧
        SearchedFor Scan.samplePath Scan.sampleTree c m d n) ∧
      ∃ r, a.nodes[0]? = some r ∧ r.path = some ⟨"app.exe"⟩ := by
  obtain ⟨a, c, r, n, h, hnodes, ⟨-, hrroot, -⟩, -, hnroot, -⟩ := Scan.exists_sample
  have hr : a.nodes[0]? = some r := by rw [hnodes]; rfl
  have hn : a.nodes[1]? = some n := by rw [hnodes]; rfl
  obtain ⟨hmodules, hroots, -⟩ := found_of_firstMention h
  obtain ⟨⟨i, m, d, hfirst⟩, hfound⟩ := hmodules 1 n hn hnroot
  obtain ⟨hlt, hsearched⟩ := hfound i m d hfirst
  obtain rfl : i = 0 := Nat.lt_one_iff.1 hlt
  obtain ⟨⟨given, hgiven, -, hrpath, -⟩, -⟩ := hroots 0 r hr hrroot
  obtain rfl := List.mem_singleton.1 (List.mem_of_find?_eq_some hgiven)
  exact ⟨a, c, h, ⟨n, m, d, hn, hfirst, hsearched⟩, r, hr, hrpath⟩

end Analysis

end DllGraph
