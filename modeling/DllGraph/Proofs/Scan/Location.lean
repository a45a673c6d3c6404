import DllGraph.Proofs.Lookup
import DllGraph.Proofs.Scan.Roots
import DllGraph.Proofs.Scan.Termination

/-!
# Where Modules Are Met

With a search path that ignores importers, all that a module is met with, apart from its depth and
the casing of its name, follows from its lowercase name alone. A root is at the path that was given
for it. Any other module is where its lowercase name is found (`Scan.place?`), since imported names
are ASCII, and what has been looked up before does not show.

Once the queue is empty, all modules with a file have been read, so what has been read follows from
the lowercase name as well.

## Main definitions

* `Scan.place?`, where a name is found;
* `Scan.Located`, that every module of a scan is at its place;
* `Scan.Closed`, that every module with a file has been read.

## Main results

* `Scan.Reached.located` — modules are at their places throughout a scan;
* `Scan.Reached.closed` — every module with a file has been read once the queue is empty.
-/

namespace DllGraph

namespace Scan

variable {p : SearchPath} {t : FileTree} {cache c : SearchCache} {given : List Path}
  {taken queue : List Nat} {id : Nat} {n : Node} {path : Path} {s s' : Scan} {met : List Node}

/-! ### Places -/

/-- Where a name is found by a search path that ignores importers. -/
def place? (p : SearchPath) (t : FileTree) (cache : SearchCache) (name : String) : Option Hit :=
  (p.search t name ⟨""⟩ cache).1

/-- The module is a root at one of the given paths, or it was looked up and is where its lowercase
name is found. -/
def AtPlace (p : SearchPath) (t : FileTree) (cache : SearchCache) (given : List Path) (n : Node) :
    Prop :=
  (∃ path ∈ given, rootKey? path = some n.key ∧ n = .ofRoot n.name path) ∨
    ∃ depth, n = .ofHit n.name depth (place? p t cache n.key)

/-- Every module is at its place, and every path that was given has a root of its name. What has
been read by then agrees with what had been read at the start. -/
structure Located (p : SearchPath) (t : FileTree) (cache : SearchCache) (given : List Path)
    (met : List Node) (c : SearchCache) : Prop where
  agrees : c.Agrees t cache
  atPlace : ∀ n ∈ met, AtPlace p t cache given n
  root : ∀ path ∈ given, ∃ n ∈ met, n.isRoot ∧ rootKey? path = some n.key

/-- A module stays where it was found while roots are added. -/
theorem AtPlace.mono {given' : List Path} (h : AtPlace p t cache given n)
    (hsub : ∀ path ∈ given, path ∈ given') : AtPlace p t cache given' n := by
  rcases h with ⟨path, hpath, hn⟩ | hn
  · exact .inl ⟨path, hsub path hpath, hn⟩
  · exact .inr hn

/-- Adding a root leaves all modules where they are, and puts the root at its own path. -/
theorem Located.addRoot (h : Located p t cache given s.met s.cache) (hs : s.Registered [])
    (hr : Rooted (given ++ [path]) s'.met) (ha : s.addRoot path = .ok s') :
    Located p t cache (given ++ [path]) s'.met s'.cache where
  agrees := by
    rw [cache_addRoot ha]
    exact h.agrees
  atPlace := by
    intro n hn
    obtain ⟨name, -, ⟨-, rfl⟩ | hadds⟩ := hs.addRoot_cases ha
    · exact (h.atPlace n hn).mono fun q hq => List.mem_append_left _ hq
    · rw [hadds.met] at hr hn
      rcases List.mem_append.1 hn with hold | hnew
      · exact (h.atPlace n hold).mono fun q hq => List.mem_append_left _ hq
      · exact .inl (hr.exists_mem hn (by rw [List.mem_singleton.1 hnew]; rfl))
  root := hr.given

/-- A module that is looked up is where its lowercase name is found. -/
theorem preservedByAdding_located (hp : p.IgnoresImporter) :
    PreservedByAdding p t (Located p t cache given) := by
  intro met c importer depth dll hdll h
  have hplace : (p.search t dll.name importer c).1 =
      place? p t cache (Text.lowercase dll.name) :=
    SearchPath.search_lowercase hp h.agrees hdll.isAscii
  refine ⟨(p.agrees_search t dll.name importer c).trans h.agrees, fun n hn => ?_, fun q hq => ?_⟩
  · rcases List.mem_append.1 hn with hn | hn
    · exact h.atPlace n hn
    · obtain rfl := List.mem_singleton.1 hn
      refine .inr ⟨depth, ?_⟩
      rw [Node.key, Node.name_ofHit, hplace]
  · obtain ⟨n, hn, hroot⟩ := h.root q hq
    exact ⟨n, List.mem_append_left _ hn, hroot⟩

/-- Modules are at their places throughout a scan. -/
theorem Reached.located (hp : p.IgnoresImporter) (h : Reached p t cache given taken s) :
    Located p t cache given s.met s.cache := by
  induction h with
  | empty => exact ⟨.refl cache, by simp [Scan.empty, Scan.met], by simp⟩
  | addRoot h ha ih => exact ih.addRoot h.registered (h.addRoot ha).rooted ha
  | step h hq hs ih => exact h.step_preserves (preservedByAdding_located hp) hq hs ih

/-- A root is at one of the given paths. -/
theorem Reached.exists_path_of_isRoot (hp : p.IgnoresImporter)
    (h : Reached p t cache given taken s) (hn : s.nodes[id]? = some n) (hroot : n.isRoot = true) :
    ∃ path ∈ given, rootKey? path = some n.key ∧ n.asMet = .ofRoot n.name path := by
  rcases (h.located hp).atPlace _ (asMet_mem_met (Array.mem_of_getElem? hn)) with hpath | ⟨_, heq⟩
  · exact hpath
  · rw [← Node.isRoot_asMet, heq, Node.isRoot_ofHit] at hroot
    cases hroot

/-- Any other module is where its lowercase name is found. -/
theorem Reached.exists_eq_ofHit (hp : p.IgnoresImporter) (h : Reached p t cache given taken s)
    (hn : s.nodes[id]? = some n) (hroot : n.isRoot = false) :
    ∃ depth, n.asMet = .ofHit n.name depth (place? p t cache n.key) := by
  rcases (h.located hp).atPlace _ (asMet_mem_met (Array.mem_of_getElem? hn)) with
    ⟨path, -, -, heq⟩ | hhit
  · rw [← Node.isRoot_asMet, heq] at hroot
    cases hroot
  · exact hhit

/-- Every given path has a root of its name. -/
theorem Reached.exists_root (hp : p.IgnoresImporter) (h : Reached p t cache given taken s)
    (hpath : path ∈ given) :
    ∃ (id : Nat) (n : Node), s.nodes[id]? = some n ∧ n.isRoot = true ∧
      rootKey? path = some n.key := by
  obtain ⟨m, hm, hroot, hkey⟩ := (h.located hp).root path hpath
  obtain ⟨n, hn, rfl⟩ := List.mem_map.1 hm
  obtain ⟨id, hid⟩ := Array.mem_iff_getElem?.1 (Array.mem_toList_iff.1 hn)
  exact ⟨id, n, hid, by rwa [Node.isRoot_asMet] at hroot, by rwa [Node.key_asMet] at hkey⟩

/-! ### The end of a scan -/

/-- Every module with a file has been read, and any other is as it was met. -/
structure Closed (t : FileTree) (s : Scan) : Prop where
  found : ∀ {id : Nat} {n : Node}, s.nodes[id]? = some n → n.isFound = true → s.Settled t n
  notFound : ∀ {id : Nat} {n : Node}, s.nodes[id]? = some n → n.isFound = false → n = n.asMet

/-- When nothing is queued any more, every module has been read and connected. -/
theorem Reached.closed (h : Reached p t cache given taken s) (hq : s.queue = []) :
    s.Closed t where
  found := by
    intro id n hn hfound
    have htaken : id ∈ taken ++ s.queue := h.registered.mem_queued_iff.2 ⟨n, hn, hfound⟩
    rw [hq, List.append_nil] at htaken
    exact h.filled.read hn htaken
  notFound := by
    intro id n hn hfound
    refine h.filled.unread hn fun htaken => ?_
    obtain ⟨m, hm, hmfound⟩ := h.registered.mem_queued_iff.1 (List.mem_append_left _ htaken)
    obtain rfl : m = n := Option.some.inj (hm.symm.trans hn)
    rw [hmfound] at hfound
    cases hfound

/-- In a scan that has come to an end, every module has been read, or has nothing to be read. -/
theorem Closed.eq_connected (h : s.Closed t) (hn : s.nodes[id]? = some n) :
    n = n.asMet.connected t n.dependencies := by
  cases hfound : n.isFound with
  | true => exact (h.found hn hfound).eq
  | false =>
    have hpath : n.path = none := by simpa [Node.isFound] using hfound
    have hmet : n = n.asMet := h.notFound hn hfound
    have hread : n.asMet.read t = n.asMet := Node.read_of_path_eq_none hpath
    rw [Node.connected, hread, ← hmet]

/-- A module imports from the DLLs that its file says. -/
theorem Settled.importedDlls (h : s.Settled t n) (hpath : n.path = some path) :
    n.importedDlls = ((t.load path).toOption.map Node.dllsOf).getD [] := by
  rw [h.eq]
  exact Node.importedDlls_read (n := n.asMet) hpath rfl

/-- A module that has dependencies has a file that has been read. -/
theorem Reached.settled_of_mem (h : Reached p t cache given taken s) (hn : s.nodes[id]? = some n)
    {d : Dependency} (hd : d ∈ n.dependencies) :
    (∃ path, n.path = some path) ∧ s.Settled t n := by
  have htaken : id ∈ taken := h.filled.mem_taken hn hd
  obtain ⟨m, hm, hfound⟩ := h.registered.mem_queued_iff.1 (List.mem_append_left _ htaken)
  obtain rfl : m = n := Option.some.inj (hm.symm.trans hn)
  exact ⟨Option.isSome_iff_exists.1 hfound, h.filled.read hn htaken⟩

/-! ### Whole analyses -/

/-- Paths that have names, at least one of them, have an analysis. -/
theorem exists_ofRoots {roots : List Path} (hne : roots ≠ [])
    (h : ∀ path ∈ roots, (rootKey? path).isSome) (p : SearchPath) (t : FileTree)
    (cache : SearchCache) : ∃ a c, Analysis.ofRoots p t cache roots = .ok (a, c) := by
  cases hrun : Analysis.ofRoots p t cache roots with
  | ok result => exact ⟨result.1, result.2, rfl⟩
  | error e =>
    rcases ofRoots_eq_error_iff.1 hrun with ⟨hnil, -⟩ | ⟨path, hpath, -⟩
    · exact absurd hnil hne
    · have hname := h path (List.mem_of_find?_eq_some hpath)
      have hnone := List.find?_some hpath
      rw [rootKey?, Option.isSome_map] at hname
      simp [Option.isNone_iff_eq_none.1 hnone] at hname

end Scan

end DllGraph
