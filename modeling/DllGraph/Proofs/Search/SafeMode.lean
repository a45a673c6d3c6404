import DllGraph.Proofs.Search.Caching

/-!
# What the Safe Search Mode Changes

The safe search mode has the working directory searched after the system directories and not before
them. This module proves what that changes: a DLL is found somewhere else if and only if nothing
that comes first yields it, and both the working directory and one of the system directories do.
Then the mode decides between the two, and in every other case it makes no difference.

The two orders have the same stages before and after the ones that change places, so all that is
left is to compare what two alternatives yield in either order (`or_or_ne_iff`).

## Main definitions

* `SearchPath.foundIn`, what is found in a search mode;
* `Query.ModeMatters`, that the search mode makes a difference.

## Main results

* `SearchPath.foundIn_ne_iff` — the modes differ exactly where the mode matters, and there one finds
  the file in the first system directory and the other one that in the working directory.
-/

namespace DllGraph

namespace Query

/-- The query with the safe search mode on, off or unknown. -/
def withSafeSearch (q : Query) (mode : Option Bool) : Query :=
  { q with installation := q.installation.map fun i => { i with safeSearch := mode } }

/-- The safe search mode matters for a DLL that a module imports: neither the manifest of the module
nor the known DLLs nor the directory of the module yield it, but the working directory does, and so
does a system directory. -/
structure ModeMatters (q : Query) (i : Installation) (t : FileTree) (name : String)
    (importer : Path) : Prop where
  notRedirected : ∀ path, ¬ Redirections.Redirects t importer name path
  notKnown : ∀ k, i.knownDlls = some k → k.lookup? name = none
  notBeside : ∀ dir, importer.parent? = some dir → ∀ path, ¬ t.Matches dir name path
  inWorkingDir : ∃ path, t.Matches q.workingDir name path
  inSystem : ∃ folder ∈ [i.systemDir, i.system16Dir, i.windowsDir], ∃ path,
    t.Matches folder name path

end Query

/-- Two alternatives in either order, with others before and after them, come to different things
exactly if nothing comes before them and both are there, and different. -/
theorem or_or_ne_iff {α : Type} {before a b after : Option α} :
    before.or ((a.or b).or after) ≠ before.or ((b.or a).or after) ↔
      before = none ∧ a ≠ none ∧ b ≠ none ∧ a ≠ b := by
  cases before <;> cases a <;> cases b <;> simp

namespace SearchPath

variable {s s' : SearchPath} {q : Query} {i : Installation} {t : FileTree} {name : String}
  {importer : Path} {mode : Option Bool}

/-! ### The standard order in stages -/

/-- What comes before all folders but that of the module. -/
def earlyEntries (i : Installation) : List SearchEntry :=
  .sideBySide :: knownDllEntries i ++ [.executableDir]

/-- The system directories. -/
def systemEntries (i : Installation) : List SearchEntry :=
  [.systemDir i.systemDir, .system16Dir i.system16Dir, .windowsDir i.windowsDir]

/-- What comes after the system directories and the working directory. -/
def lateEntries (q : Query) (i : Installation) : List SearchEntry :=
  systemPathEntries i ++ userPathEntries q

/-- Only the place of the working directory depends on the search mode. -/
theorem deduce_withSafeSearch (hi : q.installation = some i) (mode : Option Bool) :
    deduce (q.withSafeSearch mode) = ⟨earlyEntries i ++
      ((if mode.getD true then systemEntries i ++ [.workingDir q.workingDir]
        else [.workingDir q.workingDir] ++ systemEntries i) ++ lateEntries q i), i.knownDlls⟩ := by
  simp [deduce, standardEntries, Query.withSafeSearch, hi, directoryEntries, Installation.isSafe,
    earlyEntries, systemEntries, lateEntries, knownDllEntries, systemPathEntries,
    userPathEntries, Query.knownDlls?]

/-- A search mode that is not known is taken to be on. -/
theorem getD_of_ne_off (hmode : mode ≠ some false) : mode.getD true = true := by
  rcases mode with _ | _ | _
  · rfl
  · exact absurd rfl hmode
  · rfl

/-- The entries of a search path may be searched in two parts. -/
theorem find?_append (xs ys : List SearchEntry) (k : Option KnownDlls) :
    find? ⟨xs ++ ys, k⟩ t name importer =
      (find? ⟨xs, k⟩ t name importer).or (find? ⟨ys, k⟩ t name importer) :=
  List.findSome?_append

/-! ### What the stages yield -/

/-- An entry that stands for a folder yields the files of that folder. -/
theorem yields_iff_of_folder? {entry : SearchEntry} {folder path : Path}
    (h : entry.folder? = some folder) :
    s.Yields t name importer entry path ↔ t.Matches folder name path := by
  constructor
  · intro hyields
    cases hyields with
    | redirected | known | besideImporter => cases h
    | inFolder hfolder hmatch =>
      rw [h] at hfolder
      cases hfolder
      exact hmatch
  · exact .inFolder h

/-- The early entries find nothing if and only if the name is not redirected, not that of a known
DLL, and not in the directory of the importing module. -/
theorem find?_early_eq_none_iff :
    find? ⟨earlyEntries i, i.knownDlls⟩ t name importer = none ↔
      (∀ path, ¬ Redirections.Redirects t importer name path) ∧
      (∀ k, i.knownDlls = some k → k.lookup? name = none) ∧
      ∀ dir, importer.parent? = some dir → ∀ path, ¬ t.Matches dir name path := by
  rw [find?_eq_none_iff]
  constructor
  · intro h
    refine ⟨fun path hpath => ?_, fun k hk => ?_, fun dir hdir path hpath => ?_⟩
    · exact h .sideBySide (by simp [earlyEntries]) path (.redirected hpath)
    · have hmem : .knownDlls ∈ earlyEntries i := by simp [earlyEntries, knownDllEntries, hk]
      exact Option.eq_none_iff_forall_ne_some.2 fun path hpath =>
        h .knownDlls hmem path (.known hk hpath)
    · exact h .executableDir (by simp [earlyEntries]) path (.besideImporter hdir hpath)
  · rintro ⟨hredirected, hknown, hbeside⟩ entry hmem path hyields
    cases hyields with
    | redirected hpath => exact hredirected path hpath
    | known hk hpath =>
      rw [hknown _ hk] at hpath
      cases hpath
    | besideImporter hdir hpath => exact hbeside _ hdir path hpath
    | inFolder hfolder =>
      -- None of the entries stands for a folder of its own.
      simp only [earlyEntries, knownDllEntries, List.cons_append, List.mem_cons, List.mem_append,
        List.not_mem_nil, or_false] at hmem
      split at hmem <;> grind [SearchEntry.folder?]

/-- Something is found if and only if one of the entries yields something. -/
theorem find?_ne_none_iff : s.find? t name importer ≠ none ↔
    ∃ entry ∈ s.entries, ∃ path, s.Yields t name importer entry path := by
  simp [find?_eq_none_iff]

/-- The folders of the system find something if and only if one of them has a file of the name. -/
theorem find?_system_ne_none_iff {k : Option KnownDlls} :
    find? ⟨systemEntries i, k⟩ t name importer ≠ none ↔
      ∃ folder ∈ [i.systemDir, i.system16Dir, i.windowsDir],
        ∃ path, t.Matches folder name path := by
  simp [find?_ne_none_iff, systemEntries, yields_iff_of_folder?, SearchEntry.folder?]

/-- The working directory finds something if and only if it has a file of the name. -/
theorem find?_workingDir_ne_none_iff {folder : Path} {k : Option KnownDlls} :
    find? ⟨[.workingDir folder], k⟩ t name importer ≠ none ↔
      ∃ path, t.Matches folder name path := by
  simp [find?_ne_none_iff, yields_iff_of_folder?, SearchEntry.folder?]

/-- What is found in the working directory is not found in a system directory, even if they are the
same folder: a hit says through which entry it was found. -/
theorem find?_system_ne_workingDir {folder : Path} {k : Option KnownDlls}
    (h : find? ⟨systemEntries i, k⟩ t name importer ≠ none) :
    find? ⟨systemEntries i, k⟩ t name importer ≠
      find? ⟨[.workingDir folder], k⟩ t name importer := by
  intro heq
  obtain ⟨hit, hhit⟩ := Option.ne_none_iff_exists'.1 h
  have hsystem := (isFirstHit_of_find? hhit).mem_entries
  have hworking := (isFirstHit_of_find? (heq ▸ hhit)).mem_entries
  simp only [List.mem_singleton] at hworking
  rw [hworking] at hsystem
  simp [systemEntries] at hsystem

/-! ### Both modes -/

/-- What is found for a DLL that a module imports, with the safe search mode on, off or unknown. -/
def foundIn (mode : Option Bool) (q : Query) (t : FileTree) (name : String) (importer : Path) :
    Option Hit :=
  ((deduce (q.withSafeSearch mode)).search t name importer .empty).1

/-- In the safe order, the folders of the system come before the working directory. -/
theorem foundIn_of_safe (hi : q.installation = some i) (hmode : mode ≠ some false) :
    foundIn mode q t name importer =
      (find? ⟨earlyEntries i, i.knownDlls⟩ t name importer).or
        (((find? ⟨systemEntries i, i.knownDlls⟩ t name importer).or
          (find? ⟨[.workingDir q.workingDir], i.knownDlls⟩ t name importer)).or
            (find? ⟨lateEntries q i, i.knownDlls⟩ t name importer)) := by
  rw [foundIn, fst_search_empty, deduce_withSafeSearch hi, getD_of_ne_off hmode, if_pos rfl,
    find?_append, find?_append, find?_append]

/-- In the unsafe order, the working directory comes before the folders of the system. -/
theorem foundIn_of_unsafe (hi : q.installation = some i) :
    foundIn (some false) q t name importer =
      (find? ⟨earlyEntries i, i.knownDlls⟩ t name importer).or
        (((find? ⟨[.workingDir q.workingDir], i.knownDlls⟩ t name importer).or
          (find? ⟨systemEntries i, i.knownDlls⟩ t name importer)).or
            (find? ⟨lateEntries q i, i.knownDlls⟩ t name importer)) := by
  rw [foundIn, fst_search_empty, deduce_withSafeSearch hi, Option.getD_some,
    if_neg Bool.false_ne_true, find?_append, find?_append, find?_append]

/-- The order matters if and only if the early entries find nothing, and both the folders of the
system and the working directory find something. -/
theorem modeMatters_iff : q.ModeMatters i t name importer ↔
    find? ⟨earlyEntries i, i.knownDlls⟩ t name importer = none ∧
    find? ⟨systemEntries i, i.knownDlls⟩ t name importer ≠ none ∧
    find? ⟨[.workingDir q.workingDir], i.knownDlls⟩ t name importer ≠ none := by
  rw [find?_early_eq_none_iff, find?_system_ne_none_iff, find?_workingDir_ne_none_iff]
  constructor
  · rintro ⟨hredirected, hknown, hbeside, hworking, hsystem⟩
    exact ⟨⟨hredirected, hknown, hbeside⟩, hsystem, hworking⟩
  · rintro ⟨⟨hredirected, hknown, hbeside⟩, hsystem, hworking⟩
    exact ⟨hredirected, hknown, hbeside, hworking, hsystem⟩

/-- The search modes find different things exactly if the mode matters. Then the safe one, which is
also the one that is assumed, finds the first hit among the system directories, and the other one
finds a file in the working directory. -/
theorem foundIn_ne_iff (hi : q.installation = some i) (hmode : mode ≠ some false) (t : FileTree)
    (name : String) (importer : Path) :
    (foundIn mode q t name importer ≠ foundIn (some false) q t name importer ↔
      q.ModeMatters i t name importer) ∧
    (q.ModeMatters i t name importer →
      (∃ hit, foundIn mode q t name importer = some hit ∧
        IsFirstHit ⟨systemEntries i, i.knownDlls⟩ t name importer hit) ∧
      ∃ path, foundIn (some false) q t name importer = some ⟨.workingDir q.workingDir, path⟩ ∧
        t.Matches q.workingDir name path) := by
  rw [foundIn_of_safe hi hmode, foundIn_of_unsafe hi, or_or_ne_iff, modeMatters_iff]
  refine ⟨⟨fun ⟨hearly, hsystem, hworking, _⟩ => ⟨hearly, hsystem, hworking⟩,
    fun ⟨hearly, hsystem, hworking⟩ =>
      ⟨hearly, hsystem, hworking, find?_system_ne_workingDir hsystem⟩⟩,
    fun ⟨hearly, hsystem, hworking⟩ => ?_⟩
  obtain ⟨hit, hhit⟩ := Option.ne_none_iff_exists'.1 hsystem
  obtain ⟨hit', hhit'⟩ := Option.ne_none_iff_exists'.1 hworking
  rw [hearly, hhit, hhit']
  refine ⟨⟨hit, rfl, isFirstHit_of_find? hhit⟩, ?_⟩
  obtain ⟨location, path⟩ := hit'
  have hfirst := isFirstHit_of_find? hhit'
  obtain rfl : location = .workingDir q.workingDir := List.mem_singleton.1 hfirst.mem_entries
  exact ⟨path, rfl, (yields_iff_of_folder? rfl).1 hfirst.yields⟩

/-- An installation whose search mode is not known, without known DLLs. -/
def bareInstallation : Installation where
  safeSearch := none
  knownDlls := none
  windowsDir := ⟨"/Windows"⟩
  systemDir := ⟨"/Windows/System32"⟩
  system16Dir := ⟨"/Windows/System"⟩
  systemPath := none

/-- A program on it that runs in a working directory. -/
def workingQuery : Query where
  installation := some bareInstallation
  roots := [⟨"/App/app.exe"⟩]
  workingDir := ⟨"/Work"⟩
  userPath := []

/-- A DLL in the 16-bit system directory, and another one of its name in the working directory. -/
def twofoldTree : FileTree where
  entries := [(["App"], .directory), (["App", "app.exe"], .file .empty), (["Windows"], .directory),
    (["Windows", "System"], .directory), (["Windows", "System", "Helper.dll"], .file .empty),
    (["Work"], .directory), (["Work", "helper.dll"], .file .empty)]
  workingDir := ["Work"]

/-- The search mode decides which of the two is found. -/
theorem foundIn_ne_iff_twofold :
    foundIn none workingQuery twofoldTree "HELPER.DLL" ⟨"/App/app.exe"⟩ =
        some ⟨.system16Dir ⟨"/Windows/System"⟩, ⟨"/Windows/System/Helper.dll"⟩⟩ ∧
      foundIn (some false) workingQuery twofoldTree "HELPER.DLL" ⟨"/App/app.exe"⟩ =
        some ⟨.workingDir ⟨"/Work"⟩, ⟨"/Work/helper.dll"⟩⟩ ∧
      workingQuery.ModeMatters bareInstallation twofoldTree "HELPER.DLL" ⟨"/App/app.exe"⟩ := by
  have hsafe : foundIn none workingQuery twofoldTree "HELPER.DLL" ⟨"/App/app.exe"⟩ =
      some ⟨.system16Dir ⟨"/Windows/System"⟩, ⟨"/Windows/System/Helper.dll"⟩⟩ := by
    decide +kernel
  have hunsafe : foundIn (some false) workingQuery twofoldTree "HELPER.DLL" ⟨"/App/app.exe"⟩ =
      some ⟨.workingDir ⟨"/Work"⟩, ⟨"/Work/helper.dll"⟩⟩ := by
    decide +kernel
  obtain ⟨hdiffer, -⟩ := foundIn_ne_iff (q := workingQuery) (i := bareInstallation) rfl
    (Option.some_ne_none false).symm twofoldTree "HELPER.DLL" ⟨"/App/app.exe"⟩
  refine ⟨hsafe, hunsafe, hdiffer.1 ?_⟩
  rw [hsafe, hunsafe]
  decide

end SearchPath

end DllGraph
