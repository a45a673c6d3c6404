import DllGraph.Proofs.Search.ImporterDirectory

/-!
# Declarations in Manifests

An application manifest and the manifests of its private assemblies declare files, each for the
assembly in one directory. This module puts all of these declarations in order, whether or not
their files are there and whatever the case of their names, and proves that a name is redirected by
the first declaration of the name whose file is there. The manifests are refused as a whole if and
only if one of them cannot be read.

The order is that of the documents. The declarations of the application come first, and those of an
assembly come where the application depends on it.

## Main definitions

* `Declaration`, a file that a manifest declares for the assembly in a directory;
* `Redirections.IsManifestOf`, which manifest a private assembly has;
* `Redirections.Declares`, the declarations that belong to an application manifest;
* `Redirections.IsBroken`, that one of the manifests cannot be read.

## Main results

* `Xml.Element.named_eq` and `Xml.Element.namedInside_eq` — document order, at any depth;
* `Redirections.IsManifestOf.exists_directory` — the files of a private assembly are looked for
  where its manifest lies;
* `Redirections.ofText_finds_firstDeclared` — the first declaration whose file is there counts.
-/

namespace DllGraph

/-! ### Documents -/

namespace Xml.Element

/-- The elements of several documents are those of each in turn. -/
theorem placedAll_eq_flatMap (parent : Option String) (elements : List Element) :
    placedAll parent elements = elements.flatMap (placed parent) := by
  induction elements with
  | nil => rw [placedAll, List.flatMap_nil]
  | cons e rest ih => rw [placedAll, List.flatMap_cons, ih]

/-- An element comes first, and then the elements inside it. -/
theorem placed_eq (parent : Option String) (e : Element) :
    e.placed parent = (parent, e) :: e.children.flatMap (placed (some e.name)) := by
  obtain ⟨name, attributes, children⟩ := e
  rw [placed, placedAll_eq_flatMap]
  rfl

/-- What is picked from an element and everything inside it is the element itself, if it is picked,
then what is picked from each of its children in turn. -/
theorem map_filter_placed (p : Option String × Element → Bool) (parent : Option String)
    (e : Element) : ((e.placed parent).filter p).map (·.2) =
      (if p (parent, e) then [e] else []) ++
        e.children.flatMap fun child => ((child.placed (some e.name)).filter p).map (·.2) := by
  rw [placed_eq, List.filter_cons, List.filter_flatMap]
  split <;> rw [← List.map_flatMap] <;> rfl

/-- The elements of a name are the element itself, if it has the name, and then those inside each
of its children in turn. -/
theorem named_eq (root : Element) (name : String) :
    root.named name =
      (if root.name = name then [root] else []) ++ root.children.flatMap (named · name) := by
  have hparent : ∀ (parent : Option String) (e : Element),
      ((e.placed parent).filter (·.2.name == name)).map (·.2) = e.named name := fun parent e => by
    rw [named, map_filter_placed, map_filter_placed]
  rw [named, map_filter_placed]
  simp only [hparent, beq_iff_eq]

/-- The elements of a name that lie directly inside an element of another name are, for each child
in turn, the child itself, if both have these names, and then those inside the child. -/
theorem namedInside_eq (root : Element) (parent name : String) :
    root.namedInside parent name = root.children.flatMap fun child =>
      (if root.name = parent ∧ child.name = name then [child] else []) ++
        child.namedInside parent name := by
  have hinside : ∀ e : Element, e.namedInside parent name = e.children.flatMap fun child =>
      ((child.placed (some e.name)).filter
        fun p => p.1 == some parent && p.2.name == name).map (·.2) := fun e => by
    rw [namedInside, map_filter_placed]
    rfl
  rw [hinside root]
  refine List.flatMap_congr fun child _ => ?_
  rw [map_filter_placed, ← hinside child]
  simp

end Xml.Element

/-! ### Paths -/

namespace Path

/-- The path of a name inside a directory ends in the name. -/
theorem exists_bytes_child (dir : Path) (name : RawText) :
    ∃ front, (dir.child name).raw.bytes = front ++ name.bytes := by
  rw [child, join]
  split
  · exact ⟨[], rfl⟩
  · split
    · exact ⟨[], rfl⟩
    · split
      · exact ⟨dir.raw.bytes, rfl⟩
      · exact ⟨(dir.raw ++ "/").bytes, rfl⟩

/-- The path of a manifest has a parent, whatever the name of the assembly. -/
theorem exists_parent?_child (dir : Path) (assembly : String) :
    ∃ folder, (dir.child (assembly ++ ".manifest" : String)).parent? = some folder := by
  obtain ⟨front, hbytes⟩ := exists_bytes_child dir (assembly ++ ".manifest" : String)
  -- Only the end of the path counts: its last piece is too long to be `.` or `..`.
  generalize dir.child (assembly ++ ".manifest" : String) = p at hbytes ⊢
  let ending := (RawText.ofString ".manifest").bytes
  have hreverse : p.raw.bytes.reverse.takeWhile inName = ending.reverse ++
      ((front ++ (RawText.ofString assembly).bytes).reverse).takeWhile inName := by
    rw [hbytes, RawText.ofString_append, RawText.bytes_append, ← List.append_assoc,
      List.reverse_append, List.takeWhile_append_of_pos (List.all_eq_true.1 (by decide))]
  have hlong : ∀ short : RawText, short.bytes.length < 9 →
      RawText.mk (p.raw.bytes.reverse.takeWhile inName).reverse ≠ short := by
    rintro _ hshort rfl
    rw [List.length_reverse, hreverse, List.length_append] at hshort
    exact absurd (Nat.le_add_right 9 _) (Nat.not_le.2 hshort)
  refine exists_parent?_of_fileName? (fileName?_of_getLast? (getLast?_pieces p) ?_)
  rintro (h | h | h) <;> exact hlong _ (by decide) h

end Path

/-! ### Files -/

namespace FileTree

variable {t : FileTree} {p : Path}

/-- What a path leads to is what is at its place. -/
theorem entry?_eq_some_iff {entry : Entry} :
    t.entry? p = some entry ↔ ∃ place, t.find p = .ok place ∧ t.at? place = some entry := by
  rw [FileTree.entry?]
  cases t.find p <;> simp

/-- A path leads to a file if and only if there is a content. -/
theorem isFile_iff : t.isFile p = true ↔ ∃ content, t.entry? p = some (.file content) := by
  rw [isFile]
  split
  · next content hentry => simp [hentry]
  · next hnone => simpa using hnone

/-- A file is read unless it is not UTF-8. -/
theorem toOption_readText {content : ByteArray} (h : t.entry? p = some (.file content)) :
    (t.readText p).toOption = String.fromUTF8? content := by
  obtain ⟨place, hfind, hat⟩ := entry?_eq_some_iff.1 h
  rw [readText, hfind]
  dsimp only
  rw [hat]
  cases htext : String.fromUTF8? content <;> simp [htext, Except.toOption]

end FileTree

/-- A file that a manifest declares for the assembly in a directory. -/
structure Declaration where
  name : String
  dir : Path
deriving DecidableEq

namespace Declaration

/-- The path of the declared file. -/
def path (d : Declaration) : Path :=
  d.dir.child d.name

/-- A declaration of a name, without regard to case, whose file is there. -/
def IsFor (d : Declaration) (t : FileTree) (name : String) : Prop :=
  Text.lowercase d.name = Text.lowercase name ∧ t.isFile d.path = true

instance (d : Declaration) (t : FileTree) (name : String) : Decidable (d.IsFor t name) :=
  inferInstanceAs (Decidable (_ ∧ _))

end Declaration

namespace Redirections

open Xml (Element)

variable {parse? : String → Option Element} {t : FileTree} {dir manifest folder : Path}
  {assembly text name : String} {assemblies : List String} {root : Element}
  {ds ds' : List Declaration}

/-! ### The manifests of private assemblies -/

/-- The manifest of a private assembly lies next to the program or, if there is no file of that
name, in a directory of its own. -/
inductive IsManifestOf (t : FileTree) (dir : Path) (assembly : String) : Path → Prop
  | beside (h : t.isFile (dir.child (assembly ++ ".manifest" : String)) = true) :
      IsManifestOf t dir assembly (dir.child (assembly ++ ".manifest" : String))
  | below (h : t.isFile (dir.child (assembly ++ ".manifest" : String)) = false)
      (hfile : t.isFile ((dir.child assembly).child (assembly ++ ".manifest" : String)) = true) :
      IsManifestOf t dir assembly ((dir.child assembly).child (assembly ++ ".manifest" : String))

/-- The manifest of an assembly is found if and only if it lies at one of its two paths. -/
theorem assemblyManifest?_eq_some_iff :
    assemblyManifest? t dir assembly = some manifest ↔ IsManifestOf t dir assembly manifest := by
  simp only [assemblyManifest?, List.find?_cons, List.find?_nil]
  constructor
  · intro h
    split at h
    · next hfile =>
      cases h
      exact .beside hfile
    · next hnone =>
      split at h
      · next hfile =>
        cases h
        exact .below hnone hfile
      · cases h
  · rintro (hfile | ⟨hnone, hfile⟩)
    · rw [hfile]
    · rw [hnone, hfile]

/-- The manifest of an assembly is a file. -/
theorem IsManifestOf.isFile (h : IsManifestOf t dir assembly manifest) :
    t.isFile manifest = true := by
  cases h with
  | beside h => exact h
  | below _ hfile => exact hfile

/-- An assembly has one manifest. -/
theorem IsManifestOf.unique {manifest' : Path} (h : IsManifestOf t dir assembly manifest)
    (h' : IsManifestOf t dir assembly manifest') : manifest = manifest' := by
  rw [← assemblyManifest?_eq_some_iff] at h h'
  exact Option.some.inj (h.symm.trans h')

/-- The path of a manifest ends in its name, so it has a parent. -/
theorem IsManifestOf.exists_parent? (h : IsManifestOf t dir assembly manifest) :
    ∃ folder, manifest.parent? = some folder := by
  cases h with
  | beside => exact Path.exists_parent?_child dir assembly
  | below => exact Path.exists_parent?_child (dir.child assembly) assembly

/-- The parent of the path of a manifest leads to the directory in which the manifest lies. -/
theorem IsManifestOf.exists_directory (ht : t.IsTree) (h : IsManifestOf t dir assembly manifest) :
    ∃ place folder, t.find manifest = .ok place ∧ manifest.parent? = some folder ∧
      (folder.isEmpty ∧ place.dropLast = t.workingDir ∨
        ¬ folder.isEmpty ∧ t.find folder = .ok place.dropLast ∧
          t.isDirectoryAt place.dropLast = true) := by
  obtain ⟨content, hentry⟩ := FileTree.isFile_iff.1 h.isFile
  obtain ⟨place, hfind, hat⟩ := FileTree.entry?_eq_some_iff.1 hentry
  have hplace : t.isDirectoryAt place = false := by
    rw [FileTree.isDirectoryAt, hat]
  obtain ⟨folder, hfolder, -, hdir⟩ := FileTree.exists_parent_of_find ht hfind hplace
  exact ⟨place, folder, hfind, hfolder, hdir⟩

/-- The manifest at a path is well-formed, and has a root element. -/
def Reads (parse? : String → Option Element) (t : FileTree) (manifest : Path)
    (root : Element) : Prop :=
  ∃ content text, t.entry? manifest = some (.file content) ∧
    String.fromUTF8? content = some text ∧ parse? text = some root

/-- The manifest at a path is not UTF-8, or it is not well-formed. -/
def IsMalformed (parse? : String → Option Element) (t : FileTree) (manifest : Path) : Prop :=
  ∃ content, t.entry? manifest = some (.file content) ∧
    ∀ text, String.fromUTF8? content = some text → parse? text = none

/-- A file is a manifest that can be read, or it is malformed. -/
theorem isMalformed_or_reads (h : t.isFile manifest = true) :
    IsMalformed parse? t manifest ∨ ∃ root, Reads parse? t manifest root := by
  obtain ⟨content, hentry⟩ := FileTree.isFile_iff.1 h
  by_cases hmalformed : ∀ text, String.fromUTF8? content = some text → parse? text = none
  · exact .inl ⟨content, hentry, hmalformed⟩
  · simp only [not_forall] at hmalformed
    obtain ⟨text, htext, hparse⟩ := hmalformed
    obtain ⟨root, hroot⟩ := Option.ne_none_iff_exists'.1 hparse
    exact .inr ⟨root, content, text, hentry, htext, hroot⟩

/-- A text has a root element if the parser finds one. -/
theorem toOption_readRoot (text : String) : (readRoot parse? text).toOption = parse? text := by
  rw [readRoot]
  cases parse? text <;> rfl

/-- A manifest has one root element. -/
theorem Reads.unique {root' : Element} (h : Reads parse? t manifest root)
    (h' : Reads parse? t manifest root') : root = root' := by
  obtain ⟨content, text, hentry, htext, hroot⟩ := h
  obtain ⟨content', text', hentry', htext', hroot'⟩ := h'
  cases hentry.symm.trans hentry'
  cases htext.symm.trans htext'
  exact Option.some.inj (hroot.symm.trans hroot')

/-! ### Declarations in order -/

/-- The declarations of a manifest for the assembly in a directory. -/
def filesOf (root : Element) (dir : Path) : List Declaration :=
  (fileNames root).map (⟨·, dir⟩)

/-- The declarations of the assemblies that an application depends on, in order. A manifest declares
files of the directory that it lies in. An assembly without a manifest nearby declares none. -/
inductive AssembliesDeclare (parse? : String → Option Element) (t : FileTree) (dir : Path) :
    List String → List Declaration → Prop
  | nil : AssembliesDeclare parse? t dir [] []
  | shared {assembly : String} {assemblies : List String} {ds : List Declaration}
      (hnone : ∀ manifest, ¬ IsManifestOf t dir assembly manifest)
      (hrest : AssembliesDeclare parse? t dir assemblies ds) :
      AssembliesDeclare parse? t dir (assembly :: assemblies) ds
  | nearby {assembly : String} {assemblies : List String} {manifest folder : Path} {root : Element}
      {ds : List Declaration} (hmanifest : IsManifestOf t dir assembly manifest)
      (hreads : Reads parse? t manifest root) (hfolder : manifest.parent? = some folder)
      (hrest : AssembliesDeclare parse? t dir assemblies ds) :
      AssembliesDeclare parse? t dir (assembly :: assemblies) (filesOf root folder ++ ds)

/-- Assemblies have one sequence of declarations. -/
theorem AssembliesDeclare.unique (h : AssembliesDeclare parse? t dir assemblies ds)
    (h' : AssembliesDeclare parse? t dir assemblies ds') : ds = ds' := by
  induction h generalizing ds' with
  | nil =>
    cases h'
    rfl
  | shared hnone _ ih =>
    cases h' with
    | shared _ hrest' => exact ih hrest'
    | nearby hmanifest' => exact absurd hmanifest' (hnone _)
  | nearby hmanifest hreads hfolder _ ih =>
    cases h' with
    | shared hnone' => exact absurd hmanifest (hnone' _)
    | nearby hmanifest' hreads' hfolder' hrest' =>
      obtain rfl := hmanifest.unique hmanifest'
      obtain rfl := hreads.unique hreads'
      obtain rfl := Option.some.inj (hfolder.symm.trans hfolder')
      rw [ih hrest']

/-- Unless one of the manifests is malformed, the assemblies have declarations. -/
theorem exists_assembliesDeclare (parse? : String → Option Element) (t : FileTree) (dir : Path)
    (assemblies : List String)
    (h : ∀ assembly ∈ assemblies, ∀ manifest, IsManifestOf t dir assembly manifest →
      ¬ IsMalformed parse? t manifest) : ∃ ds, AssembliesDeclare parse? t dir assemblies ds := by
  induction assemblies with
  | nil => exact ⟨[], .nil⟩
  | cons assembly rest ih =>
    obtain ⟨ds, hrest⟩ := ih fun other hother => h other (List.mem_cons_of_mem _ hother)
    by_cases hnone : ∀ manifest, ¬ IsManifestOf t dir assembly manifest
    · exact ⟨ds, .shared hnone hrest⟩
    · obtain ⟨manifest, hmanifest⟩ := not_forall_not.1 hnone
      obtain ⟨folder, hfolder⟩ := hmanifest.exists_parent?
      obtain hmalformed | ⟨root, hreads⟩ := isMalformed_or_reads hmanifest.isFile
      · exact absurd hmalformed (h assembly List.mem_cons_self manifest hmanifest)
      · exact ⟨_, .nearby hmanifest hreads hfolder hrest⟩

/-! ### Entries -/

/-- The redirections of declarations whose files are there. -/
def entriesOf (t : FileTree) (ds : List Declaration) : List (String × Path) :=
  (ds.map fun d => (Text.lowercase d.name, d.path)).filter fun e => t.isFile e.2

/-- What a manifest declares is its declarations whose files are there. -/
theorem declared_eq (t : FileTree) (root : Element) (dir : Path) :
    declared t root dir = entriesOf t (filesOf root dir) := by
  rw [declared, entriesOf, filesOf, List.map_map]
  rfl

/-- The redirections of two sequences of declarations are those of the first and then those of the
second. -/
theorem entriesOf_append (t : FileTree) (ds ds' : List Declaration) :
    entriesOf t (ds ++ ds') = entriesOf t ds ++ entriesOf t ds' := by
  rw [entriesOf, List.map_append, List.filter_append]
  rfl

/-- The entry that counts for a name is that of the first declaration for it. -/
theorem lookup_entriesOf (t : FileTree) (ds : List Declaration) (name : String) :
    (entriesOf t ds).lookup (Text.lowercase name) =
      (ds.find? fun d => d.IsFor t name).map Declaration.path := by
  induction ds with
  | nil => rfl
  | cons d rest ih =>
    rw [entriesOf] at ih
    rw [entriesOf, List.map_cons, List.filter_cons, List.find?_cons]
    by_cases hfile : t.isFile d.path = true
    · rw [if_pos hfile, List.lookup_cons]
      by_cases hname : Text.lowercase d.name = Text.lowercase name
      · simp [Declaration.IsFor, hname, hfile]
      · simpa [Declaration.IsFor, hname, hfile, beq_false_of_ne (Ne.symm hname)] using ih
    · simpa [Declaration.IsFor, hfile] using ih

/-! ### Reading in order -/

/-- A manifest that can be read redirects to the files that it declares for its directory. -/
theorem toOption_ofAssembly_of_reads (h : Reads parse? t manifest root)
    (hfolder : manifest.parent? = some folder) :
    (ofAssembly parse? t manifest).toOption = some (entriesOf t (filesOf root folder)) := by
  obtain ⟨content, text, hentry, htext, hroot⟩ := h
  rw [toOption_ofAssembly, FileTree.toOption_readText hentry, htext, Option.bind_some,
    toOption_readRoot, hroot, Option.map_some, hfolder, Option.map_some, Option.getD_some,
    declared_eq]

/-- A malformed manifest cannot be read. -/
theorem toOption_ofAssembly_of_isMalformed (h : IsMalformed parse? t manifest) :
    (ofAssembly parse? t manifest).toOption = none := by
  obtain ⟨content, hentry, hmalformed⟩ := h
  rw [toOption_ofAssembly, FileTree.toOption_readText hentry]
  cases htext : String.fromUTF8? content with
  | none => rfl
  | some text =>
    rw [Option.bind_some, toOption_readRoot, hmalformed text htext]
    rfl

/-- What is read from the manifests of the assemblies is what they declare. -/
theorem toOption_ofAssemblies (h : AssembliesDeclare parse? t dir assemblies ds) :
    (ofAssemblies parse? t (assemblies.filterMap (assemblyManifest? t dir))).toOption =
      some (entriesOf t ds) := by
  induction h with
  | nil => rfl
  | @shared assembly _ _ hnone _ ih =>
    have hskip : assemblyManifest? t dir assembly = none :=
      Option.eq_none_iff_forall_ne_some.2 fun manifest hsome =>
        hnone manifest (assemblyManifest?_eq_some_iff.1 hsome)
    rw [List.filterMap_cons_none hskip, ih]
  | nearby hmanifest hreads hfolder _ ih =>
    rw [List.filterMap_cons_some (assemblyManifest?_eq_some_iff.2 hmanifest),
      toOption_ofAssemblies_cons, toOption_ofAssembly_of_reads hreads hfolder, Option.bind_some, ih,
      Option.map_some, entriesOf_append]

/-- A malformed manifest of one assembly is enough for nothing to be read. -/
theorem toOption_ofAssemblies_of_isMalformed (hmem : assembly ∈ assemblies)
    (hmanifest : IsManifestOf t dir assembly manifest) (h : IsMalformed parse? t manifest) :
    (ofAssemblies parse? t (assemblies.filterMap (assemblyManifest? t dir))).toOption = none := by
  have hread : manifest ∈ assemblies.filterMap (assemblyManifest? t dir) :=
    List.mem_filterMap.2 ⟨assembly, hmem, assemblyManifest?_eq_some_iff.2 hmanifest⟩
  -- From here on it does not matter which assemblies the manifests belong to.
  generalize assemblies.filterMap (assemblyManifest? t dir) = manifests at hread ⊢
  induction manifests with
  | nil => cases hread
  | cons first rest ih =>
    rw [toOption_ofAssemblies_cons]
    cases hread with
    | head => rw [toOption_ofAssembly_of_isMalformed h, Option.bind_none]
    | tail _ hrest =>
      rw [ih hrest]
      cases (ofAssembly parse? t first).toOption <;> rfl

/-! ### Application manifests -/

/-- The application manifest is malformed, or that of an assembly that the application depends
on. -/
def IsBroken (parse? : String → Option Element) (t : FileTree) (text : String)
    (dir : Path) : Prop :=
  parse? text = none ∨ ∃ root, parse? text = some root ∧
    ∃ assembly ∈ assemblyNames root, ∃ manifest,
      IsManifestOf t dir assembly manifest ∧ IsMalformed parse? t manifest

/-- The declarations that belong to an application manifest: its own, for the directory of the
program, and those of the assemblies that it depends on. -/
def Declares (parse? : String → Option Element) (t : FileTree) (text : String) (dir : Path)
    (ds : List Declaration) : Prop :=
  ∃ root others, parse? text = some root ∧
    AssembliesDeclare parse? t dir (assemblyNames root) others ∧ ds = filesOf root dir ++ others

/-- An application manifest has one sequence of declarations. -/
theorem Declares.unique (h : Declares parse? t text dir ds)
    (h' : Declares parse? t text dir ds') : ds = ds' := by
  obtain ⟨root, others, hroot, hothers, rfl⟩ := h
  obtain ⟨root', others', hroot', hothers', rfl⟩ := h'
  obtain rfl := Option.some.inj (hroot.symm.trans hroot')
  rw [hothers.unique hothers']

/-- Unless something is broken, an application manifest has declarations. -/
theorem exists_declares (h : ¬ IsBroken parse? t text dir) :
    ∃ ds, Declares parse? t text dir ds := by
  obtain ⟨hparse, hsound⟩ := not_or.1 h
  obtain ⟨root, hroot⟩ := Option.ne_none_iff_exists'.1 hparse
  obtain ⟨others, hothers⟩ := exists_assembliesDeclare parse? t dir (assemblyNames root)
    fun assembly hmem manifest hmanifest hmalformed =>
      hsound ⟨root, hroot, assembly, hmem, manifest, hmanifest, hmalformed⟩
  exact ⟨_, root, others, hroot, hothers, rfl⟩

/-- An application manifest with declarations redirects to those of their files that are there. -/
theorem ofText_of_declares (h : Declares parse? t text dir ds) :
    ofText parse? t text dir = .ok ⟨entriesOf t ds⟩ := by
  obtain ⟨root, others, hroot, hothers, rfl⟩ := h
  rw [← toOption_eq_some_iff, toOption_ofText, toOption_readRoot, hroot, Option.bind_some,
    toOption_ofAssemblies hothers, Option.map_some, declared_eq, entriesOf_append]

/-- An application manifest is refused if something is broken. -/
theorem exists_failure_of_isBroken (h : IsBroken parse? t text dir) :
    ∃ failure, ofText parse? t text dir = .error failure := by
  rw [← toOption_eq_none_iff, toOption_ofText, toOption_readRoot]
  obtain hroot | ⟨root, hroot, assembly, hmem, manifest, hmanifest, hmalformed⟩ := h
  · rw [hroot, Option.bind_none]
  · rw [hroot, Option.bind_some, toOption_ofAssemblies_of_isMalformed hmem hmanifest hmalformed,
      Option.map_none]

/-- An application manifest is refused if and only if it or a manifest that belongs to it is
malformed. Otherwise the declarations that belong to it are determined, and a name is redirected by
the first of them that is for the name and whose file is there, or by none. -/
theorem ofText_finds_firstDeclared (parse? : String → Option Element) (t : FileTree)
    (text : String) (dir : Path) :
    ((∃ failure, ofText parse? t text dir = .error failure) ↔ IsBroken parse? t text dir) ∧
    (¬ IsBroken parse? t text dir → ∃ r ds, ofText parse? t text dir = .ok r ∧
      Declares parse? t text dir ds ∧ (∀ ds', Declares parse? t text dir ds' → ds' = ds) ∧
      ∀ name, r.find? name = (ds.find? fun d => d.IsFor t name).map Declaration.path) := by
  refine ⟨⟨fun ⟨failure, hfailure⟩ => ?_, exists_failure_of_isBroken⟩, fun h => ?_⟩
  · by_contra hsound
    obtain ⟨ds, hds⟩ := exists_declares hsound
    rw [ofText_of_declares hds] at hfailure
    cases hfailure
  · obtain ⟨ds, hds⟩ := exists_declares h
    exact ⟨_, ds, ofText_of_declares hds, hds, fun ds' h' => h'.unique hds,
      fun name => lookup_entriesOf t ds name⟩

/-- A program with a private assembly, which has its own version of a file of the program. -/
def widgetTree : FileTree where
  entries := [(["App"], .directory), (["App", "helper.dll"], .file .empty),
    (["App", "Widgets"], .directory), (["App", "Widgets", "Helper.dll"], .file .empty),
    (["App", "Widgets", "Widgets.dll"], .file .empty),
    (["App", "Widgets", "Widgets.manifest"],
      .file "<a><file name='Helper.dll'/><file name='Widgets.dll'/></a>".toUTF8)]
  workingDir := []

/-- The manifest of the program, which declares a file that is not there. -/
def widgetManifest : String :=
  "<a><file name='ghost.dll'/><file name='HELPER.DLL'/><file name='helper.dll'/>" ++
    "<dependentAssembly><assemblyIdentity name='Widgets'/></dependentAssembly></a>"

/-- The version of the program counts for the file that both have. -/
theorem ofText_finds_firstDeclared_widget :
    ¬ IsBroken Xml.parse? widgetTree widgetManifest ⟨"/App"⟩ ∧
      ∃ r, ofText Xml.parse? widgetTree widgetManifest ⟨"/App"⟩ = .ok r ∧
        r.find? "ghost.dll" = none ∧ r.find? "Helper.dll" = some ⟨"/App/helper.dll"⟩ ∧
        r.find? "widgets.dll" = some ⟨"/App/Widgets/Widgets.dll"⟩ := by
  obtain ⟨hfails, hfinds⟩ :=
    ofText_finds_firstDeclared Xml.parse? widgetTree widgetManifest ⟨"/App"⟩
  have hread : (ofText Xml.parse? widgetTree widgetManifest ⟨"/App"⟩).toOption.map
      (fun r => (r.find? "ghost.dll", r.find? "Helper.dll", r.find? "widgets.dll")) =
        some (none, some ⟨"/App/helper.dll"⟩, some ⟨"/App/Widgets/Widgets.dll"⟩) := by
    decide +kernel
  have hsound : ¬ IsBroken Xml.parse? widgetTree widgetManifest ⟨"/App"⟩ := fun hbroken => by
    obtain ⟨failure, hfailure⟩ := hfails.2 hbroken
    rw [hfailure] at hread
    cases hread
  obtain ⟨r, -, hr, -⟩ := hfinds hsound
  rw [hr] at hread
  simp only [Except.toOption, Option.map_some, Option.some.injEq, Prod.mk.injEq] at hread
  exact ⟨hsound, r, hr, hread⟩

end Redirections

end DllGraph
