import DllGraph.Proofs.Scan.Invariant

/-!
# The Files That a Scan Starts From

A scan starts from the files that it is given, and from the first one only of those that have one
name. A root stays where it was given, whatever the search path would find under its name.

A scan cannot start from nothing, nor from a path that does not end in a file name, or in one that
is no text. There is no other way in which an analysis fails; no file takes part in it.

## Main definitions

* `Scan.rootKey?`, the name under which a path is a root;
* `Scan.Rooted`, that the roots are the given files.

## Main results

* `Scan.addRoots_eq_error_iff` and `Scan.ofRoots_eq_error_iff` — when a scan cannot start;
* `Scan.Reached.rooted` — the roots are the given files throughout a scan.
-/

namespace DllGraph.Scan

variable {p : SearchPath} {t : FileTree} {cache : SearchCache} {given roots : List Path}
  {taken : List Nat} {id : Nat} {n : Node} {met : List Node} {path : Path} {s s' : Scan}
  {e : Failure}

/-- The lowercase name of the file of a path, under which the path is a root. -/
def rootKey? (path : Path) : Option String :=
  path.moduleName?.map Text.lowercase

/-! ### Starting -/

/-- A root cannot be added if and only if its path gives no name to a module. -/
theorem addRoot_eq_error_iff :
    s.addRoot path = .error e ↔ path.moduleName? = none ∧ e = .noFileName path := by
  rw [addRoot]
  cases path.moduleName? with
  | none => simp [eq_comm]
  | some name =>
    dsimp only
    split <;> simp

/-- A scan cannot start from paths of which one does not end in a name. The first one of these is
reported. -/
theorem addRoots_eq_error_iff : s.addRoots roots = .error e ↔
    ∃ path, roots.find? (·.moduleName?.isNone) = some path ∧ e = .noFileName path := by
  induction roots generalizing s with
  | nil => simp [addRoots]
  | cons path rest ih =>
    simp only [addRoots]
    cases hadd : s.addRoot path with
    | error cause =>
      obtain ⟨hname, rfl⟩ := addRoot_eq_error_iff.1 hadd
      simp [hname, eq_comm]
    | ok s' =>
      have hname : path.moduleName?.isNone = false := by
        rw [Bool.eq_false_iff, ne_eq, Option.isNone_iff_eq_none]
        intro hname
        rw [addRoot_eq_error_iff.2 ⟨hname, rfl⟩] at hadd
        cases hadd
      simp only [List.find?_cons, hname]
      exact ih

/-- An analysis fails if there is nothing to scan, or if a path does not end in a name. -/
theorem ofRoots_eq_error_iff : Analysis.ofRoots p t cache roots = .error e ↔
    (roots = [] ∧ e = .nothingToScan) ∨
      ∃ path, roots.find? (·.moduleName?.isNone) = some path ∧ e = .noFileName path := by
  rw [← addRoots_eq_error_iff (s := .empty cache)]
  unfold Analysis.ofRoots
  split
  · simp [addRoots, eq_comm]
  · next hne =>
    have hne : roots ≠ [] := fun h => hne h
    cases (Scan.empty cache).addRoots roots <;> simp [hne]

/-! ### Roots -/

/-- The roots are the given files. Of several files of one name, the first one is a root. -/
structure Rooted (given : List Path) (met : List Node) : Prop where
  first : ∀ n ∈ met, n.isRoot → ∃ path, given.find? (rootKey? · = some n.key) = some path ∧
    path.moduleName? = some n.name ∧ n = .ofRoot n.name path
  given : ∀ path ∈ given, ∃ n ∈ met, n.isRoot ∧ rootKey? path = some n.key

/-- A root is at one of the given paths. -/
theorem Rooted.exists_mem (h : Rooted given met) (hn : n ∈ met) (hroot : n.isRoot) :
    ∃ path ∈ given, rootKey? path = some n.key ∧ n = .ofRoot n.name path := by
  obtain ⟨path, hfirst, -, heq⟩ := h.first n hn hroot
  have hkey := List.find?_some hfirst
  exact ⟨path, List.mem_of_find?_eq_some hfirst, of_decide_eq_true hkey, heq⟩

/-- A root stays the first of its name when paths are added behind it. -/
theorem Rooted.mono (h : Rooted given met) (hn : n ∈ met) (hroot : n.isRoot) (later : List Path) :
    ∃ path, (given ++ later).find? (rootKey? · = some n.key) = some path ∧
      path.moduleName? = some n.name ∧ n = .ofRoot n.name path := by
  obtain ⟨first, hfirst, hat⟩ := h.first n hn hroot
  exact ⟨first, by rw [List.find?_append, hfirst]; rfl, hat⟩

/-- A path is a root if no other path of its name was given before. -/
theorem Rooted.addRoot (h : Rooted given s.met) (hr : s.Registered [])
    (ha : s.addRoot path = .ok s') : Rooted (given ++ [path]) s'.met := by
  obtain ⟨name, hname, ⟨⟨id, hid⟩, rfl⟩ | hadds⟩ := hr.addRoot_cases ha
  · refine ⟨fun n hn hroot => h.mono hn hroot [path], fun q hq => ?_⟩
    rcases List.mem_append.1 hq with hq | hq
    · exact h.given q hq
    · -- The name is that of a root, since all modules are roots by now.
      obtain rfl := List.mem_singleton.1 hq
      obtain ⟨n, hn, hkey⟩ := hr.idOf?_eq_some_iff.1 hid
      have hmet : n.asMet ∈ s'.met := asMet_mem_met (Array.mem_of_getElem? hn)
      refine ⟨n.asMet, hmet, hr.rootsFirst rfl _ hmet, ?_⟩
      rw [rootKey?, hname, Node.key_asMet, hkey]
      rfl
  · have hkey : rootKey? path = some (Node.ofRoot name path).key := by rw [rootKey?, hname]; rfl
    refine ⟨fun n hn hroot => ?_, fun q hq => ?_⟩
    · rw [hadds.met, List.mem_append, List.mem_singleton] at hn
      rcases hn with hn | rfl
      · exact h.mono hn hroot [path]
      · -- Had a path of this name been given before, there would be a root of this name.
        have hnew : ∀ q ∈ given, rootKey? q ≠ some (Node.ofRoot name path).key := by
          intro q hq hqkey
          obtain ⟨m, hm, -, hmkey⟩ := h.given q hq
          obtain ⟨i, hi⟩ := List.mem_iff_getElem?.1 hm
          have hid := hr.index.2 ⟨m, hi, Option.some.inj (hmkey.symm.trans hqkey)⟩
          exact Option.some_ne_none i (hid.symm.trans hadds.fresh)
        have hnone : given.find? (rootKey? · = some (Node.ofRoot name path).key) = none :=
          List.find?_eq_none.2 fun q hq hqkey => hnew q hq (of_decide_eq_true hqkey)
        refine ⟨path, ?_, hname, rfl⟩
        rw [Node.asMet_ofRoot, List.find?_append, hnone, Option.none_or]
        exact List.find?_cons_of_pos (decide_eq_true hkey)
    · rw [hadds.met]
      rcases List.mem_append.1 hq with hq | hq
      · obtain ⟨n, hn, hroot⟩ := h.given q hq
        exact ⟨n, List.mem_append_left _ hn, hroot⟩
      · obtain rfl := List.mem_singleton.1 hq
        exact ⟨_, List.mem_append_right _ (List.mem_singleton.2 rfl), rfl, hkey⟩

/-- Modules that are no roots may be added behind the others. -/
theorem Rooted.append (h : Rooted given met) {fresh : List Node}
    (hfresh : ∀ n ∈ fresh, n.isRoot = false) : Rooted given (met ++ fresh) where
  first := by
    intro n hn hroot
    rcases List.mem_append.1 hn with hn | hn
    · exact h.first n hn hroot
    · rw [hfresh n hn] at hroot
      cases hroot
  given := by
    intro path hpath
    obtain ⟨n, hn, hroot⟩ := h.given path hpath
    exact ⟨n, List.mem_append_left _ hn, hroot⟩

/-- The roots are the given files throughout a scan. -/
theorem Reached.rooted (h : Reached p t cache given taken s) : Rooted given s.met := by
  induction h with
  | empty => exact ⟨by simp [Scan.empty, Scan.met], by simp⟩
  | addRoot h ha ih => exact ih.addRoot h.registered ha
  | step h hq hs ih =>
    obtain ⟨n, dependencies, fresh, hreads⟩ := h.registered.reads_step hq hs
    rw [hreads.met]
    refine ih.append fun m hm => ?_
    obtain ⟨a, ha, rfl⟩ := List.mem_map.1 hm
    obtain ⟨name, hit, rfl⟩ := hreads.fresh a ha
    simp

end DllGraph.Scan
