import DllGraph.Proofs.Search.Caching
import DllGraph.Proofs.TextNames

/-!
# The Directory of the Importing Module

A DLL is looked for in the directory in which the importing module lies. The lookup knows the module
by a path, and takes the parent of the path for the directory. This module proves that it is right
to do so, however the path is spelled, as long as there is a directory in the path at all: the
parent of a path that leads to a file leads to the directory that the file lies in.

A path that is a bare file name has the empty path as its parent, and the empty path leads nowhere,
although the file lies in the working directory. So nothing is found next to a module that is given
by its bare name.

## Main definitions

* `FileTree.IsProper`, that a file tree is one: places are distinct, are made of names, and lie in
  directories;
* `Path.IsBare`, a file name and nothing else;
* `SearchPath.Searches`, that a search path finds what a directory has.

## Main results

* `FileTree.exists_parent_of_find` — where the parent of a path to a file leads;
* `SearchPath.searches_iff_not_isBare` — when the directory of the importing module is searched.
-/

namespace DllGraph

/-! ### Names -/

namespace Path

/-- What can be the name of a file: not empty, neither `.` nor `..`, and without a separator. -/
def IsName (name : RawText) : Prop :=
  ¬ (name = "" ∨ name = "." ∨ name = "..") ∧ ∀ b ∈ name.bytes, inName b = true

instance (name : RawText) : Decidable (IsName name) :=
  decidable_of_iff (¬ (name = "" ∨ name = "." ∨ name = "..") ∧ name.bytes.all inName = true)
    (and_congr_right' List.all_eq_true)

variable {p dir : Path} {name last : RawText}

theorem IsName.ne_empty (h : IsName name) : name ≠ "" :=
  fun heq => h.1 (.inl heq)

theorem IsName.ne_here (h : IsName name) : name ≠ "." :=
  fun heq => h.1 (.inr (.inl heq))

theorem IsName.ne_up (h : IsName name) : name ≠ ".." :=
  fun heq => h.1 (.inr (.inr heq))

/-- A name does not start at the root. -/
theorem IsName.isAbsolute (h : IsName name) : (⟨name⟩ : Path).isAbsolute = false := by
  rw [Path.isAbsolute]
  cases hbytes : name.bytes with
  | nil => rfl
  | cons b rest =>
    have hb : b ≠ slash := bne_iff_ne.1 (h.2 b (by rw [hbytes]; exact List.mem_cons_self))
    simpa using hb

/-- A name is one piece. -/
theorem IsName.pieces (h : IsName name) : (⟨name⟩ : Path).pieces = [name] :=
  pieces_of_inName h.2

/-- A name is one component. -/
theorem IsName.body (h : IsName name) : (⟨name⟩ : Path).body = [.name name] := by
  rw [Path.body, h.pieces]
  simp [Component.ofPiece?, h.ne_empty, h.ne_here, h.ne_up]

/-- A path that is a name has the name for its only component. -/
theorem IsName.components (h : IsName name) : (⟨name⟩ : Path).components = [.name name] := by
  rw [← h.body, Path.components, h.isAbsolute, h.pieces]
  simp [h.ne_here, Path.body, h.pieces]

/-- A name is not empty. -/
theorem IsName.not_isEmpty (h : IsName name) : ¬ (⟨name⟩ : Path).isEmpty := by
  obtain ⟨bytes⟩ := name
  intro hempty
  obtain rfl : bytes = [] := List.isEmpty_iff.1 hempty
  exact h.ne_empty rfl

/-- Inside the empty path, a name is itself. -/
theorem IsName.child_of_isEmpty (h : IsName name) (hdir : dir.isEmpty) :
    dir.child name = ⟨name⟩ := by
  rw [child, join, h.isAbsolute, List.isEmpty_iff.1 hdir]
  rfl

/-! ### Parents -/

/-- A path consists of its parent and one more component. -/
theorem exists_components_of_parent? (h : p.parent? = some dir) :
    ∃ last, p.components = dir.components ++ [last] ∧ p.fileName? = last.name? := by
  rcases components_cases p with ⟨hnone, -⟩ | ⟨dir', last, hdir', -, hcomponents, hname⟩
  · rw [hnone] at h
    cases h
  · obtain rfl : dir' = dir := Option.some.inj (hdir'.symm.trans h)
    exact ⟨last, hcomponents, hname⟩

/-- A path that ends in a name has a parent. -/
theorem exists_parent?_of_fileName? (h : p.fileName? = some last) :
    ∃ dir, p.parent? = some dir := by
  rcases components_cases p with ⟨-, hnone, -⟩ | ⟨dir, -, hparent, -⟩
  · rw [hnone] at h
    cases h
  · exact ⟨dir, hparent⟩

/-- A path that ends in a name is this name, or the name inside some folder. -/
theorem exists_eq_child (h : p.pieces.getLast? = some last) (hname : IsName last) :
    p = ⟨last⟩ ∨ ∃ folder : Path, ¬ folder.isEmpty ∧ p = folder.child last := by
  rw [getLast?_pieces, Option.some.injEq] at h
  have hsplit : p.raw.bytes.reverse.takeWhile inName ++ p.raw.bytes.reverse.dropWhile inName =
      p.raw.bytes.reverse := List.takeWhile_append_dropWhile
  have hlast : last.bytes = (p.raw.bytes.reverse.takeWhile inName).reverse := by
    rw [← h]
  cases hrest : p.raw.bytes.reverse.dropWhile inName with
  | nil =>
    rw [hrest, List.append_nil] at hsplit
    rw [hsplit, List.reverse_reverse] at hlast
    exact .inl (congrArg ofBytes hlast.symm)
  | cons b above =>
    have hb : b = slash := by
      have hstop := List.head?_dropWhile_not inName p.raw.bytes.reverse
      rw [hrest] at hstop
      simpa [inName] using hstop
    subst hb
    have hbytes : p.raw.bytes = above.reverse ++ slash :: last.bytes := by
      rw [hrest] at hsplit
      have hreverse := congrArg List.reverse hsplit
      rw [List.reverse_append, List.reverse_cons, List.append_assoc, List.reverse_reverse,
        ← hlast] at hreverse
      exact hreverse.symm
    refine .inr ⟨ofBytes (above.reverse ++ [slash]), by simp [isEmpty, ofBytes], ?_⟩
    rw [child, join, hname.isAbsolute, ← ofBytes_bytes p, hbytes]
    simp [ofBytes, RawText.ext_iff]

/-- A file name and nothing else. -/
def IsBare (p : Path) : Prop :=
  ∃ name, p.components = [.name name]

end Path

/-! ### File trees -/

namespace FileTree

variable {t : FileTree} {place d : Place} {p dir : Path} {name last : RawText}
  {library file : String}

/-- A file tree as it can be: no place is listed twice, places are made of names, and whatever there
is lies in a directory. -/
structure IsProper (t : FileTree) : Prop where
  distinct : (t.entries.map Prod.fst).Nodup
  named : ∀ e ∈ t.entries, ∀ name ∈ e.1, Path.IsName name
  placed : ∀ e ∈ t.entries, t.isDirectoryAt e.1.dropLast = true

/-- What lies at a place other than the root is listed there. -/
theorem at?_eq_some_iff (ht : t.IsProper) {entry : Entry} (hplace : place ≠ []) :
    t.at? place = some entry ↔ (place, entry) ∈ t.entries := by
  have hat : t.at? place = t.entries.lookup place := by
    obtain ⟨first, rest, rfl⟩ := List.exists_cons_of_ne_nil hplace
    rfl
  rw [hat, List.lookup_eq_some_iff]
  constructor
  · rintro ⟨before, after, hentries, -⟩
    rw [hentries]
    simp
  · intro hmem
    obtain ⟨before, after, hentries⟩ := List.append_of_mem hmem
    refine ⟨before, after, hentries, fun e he => bne_iff_ne.2 fun heq => ?_⟩
    have hdistinct := ht.distinct
    rw [hentries, List.map_append, List.map_cons, List.nodup_append] at hdistinct
    exact hdistinct.2.2 _ (List.mem_map_of_mem he) _ List.mem_cons_self heq.symm

/-- A proper tree is a tree. -/
theorem IsProper.isTree (ht : t.IsProper) : t.IsTree := by
  intro place hdir
  by_cases hplace : place = []
  · rw [hplace]
    rfl
  · exact ht.placed _ ((at?_eq_some_iff ht hplace).1 (isDirectoryAt_iff.1 hdir))

/-- A file of a directory that has a given name, without regard to case. -/
def HasFileNamed (t : FileTree) (d : Place) (name file : String) : Prop :=
  (∃ content, t.at? (d ++ [(file : RawText)]) = some (.file content)) ∧
    Text.lowercase file = Text.lowercase name

/-- The files of a proper tree have names. -/
theorem IsProper.isName (ht : t.IsProper) (h : t.HasFileNamed d library file) :
    Path.IsName file := by
  obtain ⟨⟨content, hat⟩, -⟩ := h
  exact ht.named _ ((at?_eq_some_iff ht (by simp)).1 hat) file (by simp)

/-- The files of a folder are those of the directory that its path leads to. -/
theorem hasFile_iff (ht : t.IsProper) (hfind : t.find dir = .ok d)
    (hdir : t.isDirectoryAt d = true) :
    t.HasFile dir file ↔ ∃ content, t.at? (d ++ [(file : RawText)]) = some (.file content) := by
  simp only [HasFile, hfind, Except.ok.injEq, ← isDirectoryAt_iff]
  constructor
  · rintro ⟨d', content, rfl, -, hmem⟩
    exact ⟨content, (at?_eq_some_iff ht (by simp)).2 hmem⟩
  · rintro ⟨content, hat⟩
    exact ⟨d, content, rfl, hdir, (at?_eq_some_iff ht (by simp)).1 hat⟩

/-! ### The parent of a path to a file -/

/-- A name leads from a directory to what is there under this name. -/
theorem walk_name_eq_ok_iff (hname : Path.IsName name) : t.walk d [name] = .ok place ↔
    t.isDirectoryAt d = true ∧ (t.at? place).isSome ∧ place = d ++ [name] := by
  have hstay : ¬ (name = "" ∨ name = ".") := not_or.2 ⟨hname.ne_empty, hname.ne_here⟩
  cases hdir : t.isDirectoryAt d with
  | false => simp [← toOption_eq_some_iff, toOption_walk_cons hdir]
  | true =>
    rw [walk, isDirectoryAt_iff.1 hdir]
    dsimp only
    rw [if_neg hstay, if_neg hname.ne_up]
    split
    · next hthere =>
      rw [walk, Except.ok.injEq]
      constructor
      · rintro rfl
        exact ⟨rfl, hthere, rfl⟩
      · exact fun h => h.2.2.symm
    · next hthere =>
      simp only [reduceCtorEq, true_and, false_iff]
      rintro ⟨hsome, rfl⟩
      exact hthere hsome

/-- A path that ends in a name leads where the name leads inside its parent. -/
theorem leadAlike_child_parent (t : FileTree) (hlast : p.pieces.getLast? = some last)
    (hname : Path.IsName last) (hparent : p.parent? = some dir) :
    t.LeadAlike p (dir.child last) := by
  obtain ⟨last', hcomponents, -⟩ := Path.exists_components_of_parent? hparent
  -- The folder in front of the name and the parent are two spellings of one path, if there is one.
  rcases Path.exists_eq_child hlast hname with rfl | ⟨folder, hfolder, rfl⟩
  · have hempty : dir.isEmpty := by
      rw [hname.components] at hcomponents
      have hlength := congrArg List.length hcomponents
      exact Path.components_eq_nil_iff.1 (by simpa using hlength)
    rw [hname.child_of_isEmpty hempty]
    exact ⟨rfl, rfl⟩
  · have hchild := Path.components_join hname.isAbsolute hfolder
    rw [hname.body] at hchild
    have hsame : folder.components = dir.components :=
      (List.append_inj' (hchild.symm.trans hcomponents) rfl).1
    exact leadAlike_child hsame last

/-- A path that leads to a file ends in a name. -/
theorem exists_getLast?_of_find (ht : t.IsTree) (hfind : t.find p = .ok place)
    (hfile : t.isDirectoryAt place = false) :
    ∃ last, p.pieces.getLast? = some last ∧ Path.IsName last := by
  have hlast := Path.getLast?_pieces p
  refine ⟨_, hlast, getLast?_of_find ht hfind hfile hlast, fun b hb => ?_⟩
  rw [List.mem_reverse] at hb
  exact List.mem_takeWhile_imp hb

/-- A name inside a folder leads to what is there under this name. -/
theorem find_child_eq_ok_iff (hname : Path.IsName name) (hdir : ¬ dir.isEmpty) :
    t.find (dir.child name) = .ok place ↔
      ∃ d, t.find dir = .ok d ∧ t.isDirectoryAt d = true ∧ (t.at? place).isSome ∧
        place = d ++ [name] := by
  have hfolder : ∀ d, t.directoryOf? dir.components = some d ↔
      t.find dir = .ok d ∧ t.isDirectoryAt d = true := fun d => by
    rw [← filter_find, Option.filter_eq_some_iff, toOption_eq_some_iff]
  rw [← toOption_eq_some_iff, Path.child, find_join hname.isAbsolute hdir, hname.pieces]
  simp only [Option.bind_eq_some_iff, hfolder, toOption_eq_some_iff, walk_name_eq_ok_iff hname]
  grind

/-- The parent of a path to a file leads to the directory that the file lies in, under its file
name, unless it is the empty path: then the file lies in the working directory. -/
theorem exists_parent_of_find (ht : t.IsTree) (hfind : t.find p = .ok place)
    (hfile : t.isDirectoryAt place = false) :
    ∃ dir, p.parent? = some dir ∧ p.fileName? = place.getLast? ∧
      (dir.isEmpty ∧ place.dropLast = t.workingDir ∨
        ¬ dir.isEmpty ∧ t.find dir = .ok place.dropLast ∧
          t.isDirectoryAt place.dropLast = true) := by
  obtain ⟨last, hlast, hname⟩ := exists_getLast?_of_find ht hfind hfile
  have hfileName := Path.fileName?_of_getLast? hlast hname.1
  obtain ⟨dir, hparent⟩ := Path.exists_parent?_of_fileName? hfileName
  have hlead := (leadAlike_child_parent t hlast hname hparent).find
  rw [hfind, eq_comm, Except.toOption, toOption_eq_some_iff] at hlead
  rw [hfileName]
  by_cases hdir : dir.isEmpty
  · rw [hname.child_of_isEmpty hdir, find, if_neg hname.not_isEmpty, hname.isAbsolute,
      hname.pieces] at hlead
    obtain ⟨-, -, rfl⟩ := (walk_name_eq_ok_iff hname).1 hlead
    exact ⟨dir, hparent, List.getLast?_concat.symm, .inl ⟨hdir, List.dropLast_concat⟩⟩
  · obtain ⟨d, hd, hisDir, -, rfl⟩ := (find_child_eq_ok_iff hname hdir).1 hlead
    refine ⟨dir, hparent, List.getLast?_concat.symm, .inr ⟨hdir, ?_⟩⟩
    rw [List.dropLast_concat]
    exact ⟨hd, hisDir⟩

end FileTree

/-! ### The directory of the importing module -/

section Search

variable {t : FileTree} {d place : Place} {p dir importer path : Path} {name : String}

/-- A path to a file is bare if and only if its parent is the empty path. -/
theorem Path.isBare_iff {last : RawText} (hparent : p.parent? = some dir)
    (hname : p.fileName? = some last) : p.IsBare ↔ dir.isEmpty := by
  obtain ⟨last', hcomponents, hlast⟩ := Path.exists_components_of_parent? hparent
  rw [hname] at hlast
  rw [← Path.components_eq_nil_iff, Path.IsBare, hcomponents]
  constructor
  · rintro ⟨name, hsingle⟩
    have hlength := congrArg List.length hsingle
    simpa using hlength
  · intro hnil
    cases last' with
    | name raw => exact ⟨raw, by rw [hnil]; rfl⟩
    | root | here | up => cases hlast

/-- Nothing is found in the folder of the empty path, which is no folder. -/
theorem findInFolder?_of_isEmpty (h : dir.isEmpty) : findInFolder? t dir name = none := by
  rw [findInFolder?_eq_none_iff]
  rintro _ ⟨file, ⟨d, content, hfind, -⟩, -⟩
  rw [FileTree.find, if_pos h] at hfind
  cases hfind

/-- What is found in the folder of a directory is a file of the directory that has the name, and the
path to it leads there. -/
theorem exists_file_of_findInFolder? (ht : t.IsProper) (hfind : t.find dir = .ok d)
    (hdir : t.isDirectoryAt d = true) (h : findInFolder? t dir name = some path) :
    ∃ file, t.HasFileNamed d name file ∧ t.find path = .ok (d ++ [(file : RawText)]) := by
  obtain ⟨file, hfile, hname, rfl⟩ := matches_of_findInFolder? h
  have hnamed : t.HasFileNamed d name file := ⟨(FileTree.hasFile_iff ht hfind hdir).1 hfile, hname⟩
  have hdirNe : ¬ dir.isEmpty := fun hempty => by
    rw [findInFolder?_of_isEmpty hempty] at h
    cases h
  obtain ⟨content, hat⟩ := hnamed.1
  exact ⟨file, hnamed, (FileTree.find_child_eq_ok_iff (ht.isName hnamed) hdirNe).2
    ⟨d, hfind, hdir, by rw [hat]; rfl, rfl⟩⟩

/-- If nothing is found in a directory, then no file of it has the name, but for case. -/
theorem not_hasFileNamed_of_findInFolder? (ht : t.IsProper) (hfind : t.find dir = .ok d)
    (hdir : t.isDirectoryAt d = true) (h : findInFolder? t dir name = none) (file : String) :
    ¬ t.HasFileNamed d name file := fun hfile =>
  findInFolder?_eq_none_iff.1 h _
    ⟨file, (FileTree.hasFile_iff ht hfind hdir).2 hfile.1, hfile.2, rfl⟩

namespace SearchPath

variable {s : SearchPath} {content : ByteArray}

/-- Whatever is looked up for a module, it is found in a directory as a file of the directory that
has the name, and it is not found if there is no such file. -/
def Searches (s : SearchPath) (t : FileTree) (importer : Path) (d : Place) : Prop :=
  ∀ name, match (s.search t name importer .empty).1 with
    | some hit => hit.location = .executableDir ∧
        ∃ file, t.HasFileNamed d name file ∧ t.find hit.path = .ok (d ++ [(file : RawText)])
    | none => ∀ file, ¬ t.HasFileNamed d name file

/-- With the directory of the importing module as the only entry, a search is one of this
directory. -/
theorem fst_search_executableDir (hs : s.entries = [.executableDir])
    (hparent : importer.parent? = some dir) : (s.search t name importer .empty).1 =
      (findInFolder? t dir name).map (⟨.executableDir, ·⟩) := by
  rw [fst_search_empty, find?, hs, List.findSome?_singleton, findAt?, hparent, Option.bind_some]

/-- A search path of the directory of the importing module searches the directory in which the
module lies, however the path of the module is spelled, unless it is a bare file name: then nothing
is found at all, not even the module itself, if its name is a text that can be looked up. -/
theorem searches_iff_not_isBare (ht : t.IsProper) (hs : s.entries = [.executableDir])
    (hfind : t.find importer = .ok place) (hfile : t.at? place = some (.file content)) :
    (importer.moduleName?.isSome → (s.Searches t importer place.dropLast ↔ ¬ importer.IsBare)) ∧
      (¬ importer.IsBare → s.Searches t importer place.dropLast) ∧
      (importer.IsBare → ∀ name, (s.search t name importer .empty).1 = none) := by
  have hplace : t.isDirectoryAt place = false := by
    rw [FileTree.isDirectoryAt, hfile]
  obtain ⟨last, hlast, hname⟩ := FileTree.exists_getLast?_of_find ht.isTree hfind hplace
  have hfileName := Path.fileName?_of_getLast? hlast hname.1
  obtain ⟨dir, hparent, hends, hdir⟩ := FileTree.exists_parent_of_find ht.isTree hfind hplace
  have hbare : importer.IsBare ↔ dir.isEmpty := Path.isBare_iff hparent hfileName
  have hnothing : importer.IsBare → ∀ name, (s.search t name importer .empty).1 = none := by
    intro h name
    rw [fst_search_executableDir hs hparent, findInFolder?_of_isEmpty (hbare.1 h)]
    rfl
  have hsearches : ¬ importer.IsBare → s.Searches t importer place.dropLast := by
    intro h name
    obtain ⟨hempty, -⟩ | ⟨-, hlead, hisDir⟩ := hdir
    · exact absurd (hbare.2 hempty) h
    · rw [fst_search_executableDir hs hparent]
      cases hfound : findInFolder? t dir name with
      | some path => exact ⟨rfl, exists_file_of_findInFolder? ht hlead hisDir hfound⟩
      | none => exact not_hasFileNamed_of_findInFolder? ht hlead hisDir hfound
  refine ⟨fun htext => ⟨fun hall h => ?_, hsearches⟩, hsearches, hnothing⟩
  -- The module itself is a file of the directory, and not even this is found.
  obtain ⟨self, hself⟩ := Option.isSome_iff_exists.1 htext
  obtain ⟨raw, hraw, hof⟩ := Option.bind_eq_some_iff.1 hself
  obtain rfl := RawText.text?_eq_some_iff.1 hof
  obtain ⟨above, rfl⟩ := List.getLast?_eq_some_iff.1 (hends.symm.trans hraw)
  have hmiss := hall self
  rw [hnothing h, List.dropLast_concat] at hmiss
  exact hmiss self ⟨⟨content, hfile⟩, rfl⟩

/-- A program with a DLL next to it, in the working directory. -/
def siblingTree : FileTree where
  entries := [(["App"], .directory), (["App", "app.exe"], .file .empty),
    (["App", "Dep.dll"], .file .empty)]
  workingDir := ["App"]

/-- The search path of the directory of the importing module. -/
def siblingPath : SearchPath := ⟨[.executableDir], none⟩

/-- The sample tree is proper. -/
theorem isProper_siblingTree : siblingTree.IsProper where
  distinct := by decide +kernel
  named := by decide +kernel
  placed := by decide +kernel

/-- The directory is searched for the program that is given by a way there and back. -/
theorem searches_iff_not_isBare_sibling :
    siblingTree.IsProper ∧ siblingTree.find ⟨"../App/./app.exe"⟩ = .ok ["App", "app.exe"] ∧
      siblingTree.at? ["App", "app.exe"] = some (.file .empty) ∧
      siblingPath.Searches siblingTree ⟨"../App/./app.exe"⟩ ["App"] ∧
      siblingTree.HasFileNamed ["App"] "DEP.dll" "Dep.dll" := by
  have hfind : siblingTree.find ⟨"../App/./app.exe"⟩ = .ok ["App", "app.exe"] := rfl
  obtain ⟨-, hsearches, -⟩ :=
    searches_iff_not_isBare isProper_siblingTree (s := siblingPath) rfl hfind rfl
  have hlength : (⟨"../App/./app.exe"⟩ : Path).components.length ≠ 1 := by decide +kernel
  refine ⟨isProper_siblingTree, hfind, rfl, hsearches ?_, ⟨.empty, rfl⟩, by decide +kernel⟩
  rintro ⟨name, hcomponents⟩
  exact hlength (congrArg List.length hcomponents)

/-- So the directory of an importing module is not searched for every path of the module: not for
the bare name of a program in the working directory. -/
theorem exists_directory_not_searched :
    ¬ ∀ (s : SearchPath) (t : FileTree) (importer : Path) (place : Place) (content : ByteArray),
      t.IsProper → s.entries = [.executableDir] → t.find importer = .ok place →
      t.at? place = some (.file content) → s.Searches t importer place.dropLast := by
  intro hall
  have hsearches := hall siblingPath siblingTree ⟨"app.exe"⟩ ["App", "app.exe"] .empty
    isProper_siblingTree rfl rfl rfl "dep.dll"
  have hmiss : (siblingPath.search siblingTree "dep.dll" ⟨"app.exe"⟩ .empty).1 = none := by
    decide +kernel
  rw [hmiss] at hsearches
  exact hsearches "Dep.dll" ⟨⟨.empty, rfl⟩, by decide +kernel⟩

end SearchPath

end Search

end DllGraph
