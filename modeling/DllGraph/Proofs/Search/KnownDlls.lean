import DllGraph.Proofs.Exports
import DllGraph.Proofs.Search.Caching

/-!
# Known DLLs Cannot Be Planted

A known DLL is mapped from the directory of the list, and the standard search order asks the list
before it looks into any folder. So whoever can put files into the folders that are searched cannot
have a file of theirs loaded in place of a known DLL. Only the manifest of the importing module
comes first. This module proves that, for both search modes and for every list that can be built.

The list is searched by binary search, which needs the names in order. Whichever way a list is
built, its names are (`KnownDlls.Built.ascends`), so that a name is found if and only if it is
there (`KnownDlls.Built.contains_iff`).

## Main definitions

* `KnownDlls.Built`, the lists that can be built.

## Main results

* `KnownDlls.Built.lookup?_eq` — what a list answers for a name;
* `SearchPath.search_eq_knownDll` — a known DLL that is not redirected is found on the list,
  whatever files there are, and no other DLL is found there.
-/

namespace DllGraph

namespace KnownDlls

/-- The lists of known DLLs that can be built. -/
inductive Built : KnownDlls → Prop
  | ofNames {names directory k} (h : KnownDlls.ofNames names directory = .ok k) : Built k
  | ofUnsorted {names directory k} (h : KnownDlls.ofUnsorted names directory = .ok k) : Built k
  | ofText {text directory k} (h : KnownDlls.ofText text directory = .ok k) : Built k
  | ofFile {t file directory k} (h : KnownDlls.ofFile t file directory = .ok k) : Built k
  | windowsDefault (directory) : Built (KnownDlls.windowsDefault directory)
  /-- The directory of a list may be replaced. -/
  | withDirectory {k} (h : Built k) (directory) : Built { k with directory }

/-- A list without a descent ascends as a whole. -/
theorem pairwise_of_firstDescent?_eq_none {names : List String} (h : firstDescent? names = none) :
    names.Pairwise (· < ·) := by
  induction names with
  | nil => exact .nil
  | cons first rest ih =>
    cases rest with
    | nil => exact List.pairwise_singleton ..
    | cons second rest =>
      rw [firstDescent?] at h
      split at h
      · next hlt =>
        have hrest := ih h
        refine List.pairwise_cons.2 ⟨fun name hname => ?_, hrest⟩
        rcases List.mem_cons.1 hname with rfl | hname
        · exact hlt
        · exact lt_trans hlt ((List.pairwise_cons.1 hrest).1 name hname)
      · cases h

/-- The names of known DLLs ascend. -/
theorem ascends_of_ofNames {names : List String} {directory : Path} {k : KnownDlls}
    (h : KnownDlls.ofNames names directory = .ok k) : k.names.toList.Pairwise (· < ·) := by
  rw [KnownDlls.ofNames] at h
  split at h
  · cases h
  · split at h
    · cases h
    · next hordered =>
      cases h
      exact pairwise_of_firstDescent?_eq_none hordered

/-- The names of a list are strictly ascending. -/
theorem Built.ascends {k : KnownDlls} (h : k.Built) : k.names.toList.Pairwise (· < ·) := by
  induction h with
  | ofNames h | ofUnsorted h | ofText h => exact ascends_of_ofNames h
  | ofFile h =>
    rw [KnownDlls.ofFile] at h
    split at h
    · cases h
    · exact ascends_of_ofNames h
  | windowsDefault directory =>
    have hstock : firstDescent? (KnownDlls.windowsDefault default).names.toList = none := by
      decide +kernel
    exact pairwise_of_firstDescent?_eq_none hstock
  | withDirectory _ _ ih => exact ih

variable {k : KnownDlls} {name : String}

/-- A comparison finds a name at a position if and only if that name is there. -/
theorem compareAt_eq_iff {i : Nat} : k.compareAt name i = .eq ↔ k.names[i]? = some name := by
  rw [compareAt]
  cases k.names[i]? with
  | none => simp
  | some other => simp

/-- The DLLs on a list are those whose lowercase form is on it. -/
theorem Built.contains_iff (h : k.Built) (name : String) :
    k.contains name = true ↔ Text.asciiLowercase name ∈ k.names := by
  have hascends : Ascends (k.compareAt (Text.asciiLowercase name)) k.names.size :=
    ascends_of_pairwise id (h.ascends.imp fun hlt => le_of_lt hlt)
      fun hi => by rw [compareAt, hi, id]
  rw [contains, position?, binarySearch_isSome_iff hascends, Array.mem_iff_getElem?]
  constructor
  · rintro ⟨i, -, heq⟩
    exact ⟨i, compareAt_eq_iff.1 heq⟩
  · rintro ⟨i, hi⟩
    exact ⟨i, (Array.getElem?_eq_some_iff.1 hi).1, compareAt_eq_iff.2 hi⟩

/-- A list answers for the names that are on it, without regard to ASCII case, and for no others:
each is in the directory of the list, in lower case. -/
theorem Built.lookup?_eq (h : k.Built) (name : String) : k.lookup? name =
    if Text.asciiLowercase name ∈ k.names then some (k.directory.child (Text.asciiLowercase name))
    else none := by
  have hfound := h.contains_iff name
  rw [contains] at hfound
  cases hposition : k.position? name with
  | none =>
    rw [if_neg fun hlisted => by simpa [hposition] using hfound.2 hlisted, lookup?, hposition]
    rfl
  | some i =>
    have hi : k.names[i]? = some (Text.asciiLowercase name) :=
      compareAt_eq_iff.1 (compareAt_of_binarySearch hposition)
    rw [if_pos (hfound.1 (by rw [hposition]; rfl)), lookup?, hposition]
    simp [hi]

end KnownDlls

namespace SearchPath

variable {s : SearchPath} {t : FileTree} {c : SearchCache} {k : KnownDlls} {name : String}
  {importer path : Path} {q : Query} {i : Installation}

/-- The standard search order asks the manifest first, and then the list of known DLLs. -/
theorem exists_standardEntries_eq (hi : q.installation = some i) (hk : i.knownDlls = some k) :
    ∃ rest, (deduce q).entries = .sideBySide :: .knownDlls :: rest := by
  refine ⟨.executableDir :: directoryEntries i q.workingDir ++ systemPathEntries i ++
    userPathEntries q, ?_⟩
  simp [deduce, standardEntries, hi, knownDllEntries, hk]

/-- A deduced search path has the known DLLs of the installation. -/
theorem knownDlls_deduce (hi : q.installation = some i) (hk : i.knownDlls = some k) :
    (deduce q).knownDlls = some k := by
  rw [deduce, Query.knownDlls?, hi, Option.bind_some, hk]

/-- A module whose manifest does not redirect a name is not redirected by what has been kept. -/
theorem fst_findRedirected?_eq_none (hc : c.IsOf t)
    (h : ∀ path, ¬ Redirections.Redirects t importer name path) :
    (c.findRedirected? t importer name).1 = none := by
  have hnone : (redirectionsOf t importer).find? name = none :=
    Option.eq_none_iff_forall_ne_some.2 fun path hpath =>
      h path (Redirections.find?_redirectionsOf_eq_some_iff.1 hpath)
  have hrel : Option.Rel (fun p q : Path => p.components = q.components)
      (c.findRedirected? t importer name).1 ((redirectionsOf t importer).find? name) :=
    Redirections.rel_find? (hc.redirections.rel Redirections.Alike.refl importer) name
  rw [hnone] at hrel
  cases hfound : (c.findRedirected? t importer name).1 with
  | none => rfl
  | some path =>
    rw [hfound] at hrel
    cases hrel

/-- What the list answers is found, unless the manifest redirects the name. -/
theorem search_of_lookup? (hi : q.installation = some i) (hk : i.knownDlls = some k)
    (hlookup : k.lookup? name = some path)
    (hredirected : (c.findRedirected? t importer name).1 = none) :
    ((deduce q).search t name importer c).1 = some ⟨.knownDlls, path⟩ := by
  obtain ⟨rest, hentries⟩ := exists_standardEntries_eq hi hk
  rw [search, hentries, searchFrom, searchAt]
  generalize c.findRedirected? t importer name = asked at hredirected ⊢
  obtain ⟨found, c'⟩ := asked
  cases hredirected
  simp only [searchFrom, searchAt, knownDlls_deduce hi hk, Option.bind_some, hlookup]

/-- What is found depends on the manifest only, if the list has an answer. -/
theorem find?_congr_of_lookup? {t' : FileTree} (hi : q.installation = some i)
    (hk : i.knownDlls = some k) (hlookup : k.lookup? name = some path)
    (h : ∀ path, Redirections.Redirects t importer name path ↔
      Redirections.Redirects t' importer name path) :
    (deduce q).find? t name importer = (deduce q).find? t' name importer := by
  obtain ⟨rest, hentries⟩ := exists_standardEntries_eq hi hk
  have hfind : (redirectionsOf t importer).find? name = (redirectionsOf t' importer).find? name :=
    Option.ext fun path => by
      rw [Redirections.find?_redirectionsOf_eq_some_iff, h path,
        Redirections.find?_redirectionsOf_eq_some_iff]
  simp only [find?, hentries, List.findSome?_cons, findAt?, hfind, knownDlls_deduce hi hk,
    Option.bind_some, hlookup, Option.map_some]

/-- What is found on the list is what the list answers. -/
theorem lookup?_of_location_eq (hc : c.IsOf t) {hit : Hit}
    (h : (s.search t name importer c).1 = some hit) (hlocation : hit.location = .knownDlls) :
    ∃ k path, s.knownDlls = some k ∧ k.lookup? name = some path := by
  have hrel := rel_search hc s name importer
  rw [h, fst_search_empty, find?] at hrel
  generalize hfind : s.entries.findSome? _ = found at hrel
  cases hrel with
  | @some _ hit' halike =>
    obtain ⟨entry, -, hentry⟩ := List.exists_of_findSome?_eq_some hfind
    obtain ⟨path, hpath, rfl⟩ := Option.map_eq_some_iff.1 hentry
    obtain rfl : entry = .knownDlls := halike.1.symm.trans hlocation
    obtain ⟨k, hk, hlookup⟩ := Option.bind_eq_some_iff.1 hpath
    exact ⟨k, path, hk, hlookup⟩

/-- A known DLL is found on the list unless the manifest of the module redirects its name, whatever
has been looked up before. File trees by which the manifest redirects the name to the same path are
all the same to it: nothing depends on the files of the folders that are searched. A DLL that is not
on the list is never found there. -/
theorem search_eq_knownDll (hi : q.installation = some i) (hk : i.knownDlls = some k)
    (hbuilt : k.Built) (name : String) :
    (Text.asciiLowercase name ∈ k.names →
      (∀ t importer calls, (∀ path, ¬ Redirections.Redirects t importer name path) →
        ((deduce q).search t name importer ((deduce q).searchAll t calls .empty).2).1 =
          some ⟨.knownDlls, k.directory.child (Text.asciiLowercase name)⟩) ∧
      ∀ t t' importer, (∀ path, Redirections.Redirects t importer name path ↔
          Redirections.Redirects t' importer name path) →
        ((deduce q).search t name importer .empty).1 =
          ((deduce q).search t' name importer .empty).1) ∧
    (Text.asciiLowercase name ∉ k.names → ∀ t importer calls hit,
      ((deduce q).search t name importer ((deduce q).searchAll t calls .empty).2).1 = some hit →
        hit.location ≠ .knownDlls) := by
  have hlookup := hbuilt.lookup?_eq name
  have hof : ∀ t calls, ((deduce q).searchAll t calls .empty).2.IsOf t := fun t calls =>
    isOf_searchAll (SearchCache.isOf_empty t) (deduce q) calls
  refine ⟨fun hlisted => ?_, fun hunlisted t importer calls hit hhit hlocation => ?_⟩
  · rw [if_pos hlisted] at hlookup
    refine ⟨fun t importer calls hnot => ?_, fun t t' importer hagree => ?_⟩
    · exact search_of_lookup? hi hk hlookup (fst_findRedirected?_eq_none (hof t calls) hnot)
    · rw [fst_search_empty, fst_search_empty]
      exact find?_congr_of_lookup? hi hk hlookup hagree
  · obtain ⟨k', path, hk', hanswer⟩ := lookup?_of_location_eq (hof t calls) hhit hlocation
    rw [knownDlls_deduce hi hk, Option.some.injEq] at hk'
    rw [← hk', hlookup, if_neg hunlisted] at hanswer
    cases hanswer

/-- A program on a stock installation with its search mode off, which looks into the working
directory early. -/
def stockQuery : Query where
  installation := some {
    safeSearch := some false
    knownDlls := some (.windowsDefault ⟨"/Windows/System32"⟩)
    windowsDir := ⟨"/Windows"⟩
    systemDir := ⟨"/Windows/System32"⟩
    system16Dir := ⟨"/Windows/System"⟩
    systemPath := none }
  roots := [⟨"/App/app.exe"⟩]
  workingDir := ⟨"/Work"⟩
  userPath := []

/-- Files with the name of a known DLL, next to the program and in the working directory. -/
def plantedTree : FileTree where
  entries := [(["App"], .directory), (["App", "app.exe"], .file .empty),
    (["App", "KERNEL32.dll"], .file .empty), (["Work"], .directory),
    (["Work", "kernel32.dll"], .file .empty)]
  workingDir := ["Work"]

/-- Neither of the planted files is found. -/
theorem search_eq_knownDll_planted :
    ((deduce stockQuery).search plantedTree "Kernel32.DLL" ⟨"/App/app.exe"⟩ .empty).1 =
      some ⟨.knownDlls, ⟨"/Windows/System32/kernel32.dll"⟩⟩ := by
  have hnot : (redirectionsOf plantedTree ⟨"/App/app.exe"⟩).find? "Kernel32.DLL" = none := by
    decide +kernel
  have hlisted : Text.asciiLowercase "Kernel32.DLL" ∈
      (KnownDlls.windowsDefault ⟨"/Windows/System32"⟩).names := by
    decide +kernel
  have hfound := ((search_eq_knownDll (q := stockQuery) rfl rfl (.windowsDefault _) _).1 hlisted).1
    plantedTree ⟨"/App/app.exe"⟩ [] fun path hpath => by
      rw [← Redirections.find?_redirectionsOf_eq_some_iff, hnot] at hpath
      cases hpath
  exact hfound

end SearchPath

end DllGraph
