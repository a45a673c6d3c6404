import DllGraph.Proofs.Search.Spelling
import Mathlib.Data.List.Forall2
import Mathlib.Data.Option.Basic

/-!
# Redirections of One Module

The redirections of a module are read from the manifest next to it and from the manifests of the
assemblies that this one depends on, all of them found from the path of the module. This module
proves that the spelling of that path does not matter: under all spellings the same names are
redirected, to the same paths up to spelling.

## Main definitions

* `Redirections.Alike`, redirections that are the same up to how their paths are spelled.

## Main results

* `Redirections.alike_redirectionsOf` — the redirections of a module are alike under all spellings;
* `Redirections.rel_find?` — redirections that are alike redirect a name alike.
-/

namespace DllGraph

/-- Two entries for one name that lead to the same path up to spelling. -/
def EntryAlike (e e' : String × Path) : Prop :=
  e.1 = e'.1 ∧ e.2.components = e'.2.components

/-- Entries for the same names, in the same order, that lead to the same paths up to spelling. -/
abbrev EntriesAlike : List (String × Path) → List (String × Path) → Prop :=
  List.Forall₂ EntryAlike

/-- Entries are like themselves. -/
theorem EntriesAlike.refl (entries : List (String × Path)) : EntriesAlike entries entries :=
  List.forall₂_same.2 fun _ _ => ⟨rfl, rfl⟩

namespace Redirections

variable {parse? : String → Option Xml.Element} {t : FileTree}
  {dir dir' importer importer' manifest manifest' : Path}

/-- Redirections of the same names, to the same paths up to spelling. -/
def Alike (r r' : Redirections) : Prop :=
  EntriesAlike r.entries r'.entries

/-- Redirections are like themselves. -/
theorem Alike.refl (r : Redirections) : r.Alike r :=
  EntriesAlike.refl r.entries

/-- Redirections that are alike redirect a name to the same path up to spelling, or not at all. -/
theorem rel_find? {r r' : Redirections} (h : r.Alike r') (name : String) :
    Option.Rel (fun p q => p.components = q.components) (r.find? name) (r'.find? name) := by
  obtain ⟨entries⟩ := r
  obtain ⟨entries'⟩ := r'
  change EntriesAlike entries entries' at h
  simp only [find?]
  induction h with
  | nil => exact .none
  | @cons e e' _ _ hfirst _ ih =>
    obtain ⟨key, path⟩ := e
    obtain ⟨key', path'⟩ := e'
    obtain ⟨rfl, hpath⟩ := hfirst
    cases hkey : Text.lowercase name == key with
    | true =>
      simp only [List.lookup_cons, hkey]
      exact .some hpath
    | false =>
      simp only [List.lookup_cons, hkey]
      exact ih

/-! ### Reading manifests -/

/-- A manifest declares the same files, whatever the spelling of its directory. -/
theorem entriesAlike_declared (h : dir.components = dir'.components) (root : Xml.Element) :
    EntriesAlike (declared t root dir) (declared t root dir') := by
  simp only [declared]
  induction fileNames root with
  | nil => exact .nil
  | cons name rest ih =>
    have hchild := FileTree.leadAlike_child (t := t) h name
    rw [List.map_cons, List.map_cons, List.filter_cons, List.filter_cons, hchild.isFile]
    split
    · exact .cons ⟨rfl, hchild.components⟩ ih
    · exact ih

/-- The manifest of an assembly is found in the same place, whatever the spelling of the directory
of the program. -/
theorem rel_assemblyManifest? (h : dir.components = dir'.components) (assembly : String) :
    Option.Rel t.LeadAlike (assemblyManifest? t dir assembly)
      (assemblyManifest? t dir' assembly) := by
  simp only [assemblyManifest?, List.find?_cons, List.find?_nil]
  generalize assembly ++ ".manifest" = file
  have hbeside : t.LeadAlike (dir.child file) (dir'.child file) := FileTree.leadAlike_child h file
  have hbelow : t.LeadAlike ((dir.child assembly).child file) ((dir'.child assembly).child file) :=
    FileTree.leadAlike_child (Path.components_join_congr h ⟨assembly⟩) file
  rw [hbeside.isFile, hbelow.isFile]
  split
  · exact .some hbeside
  · split
    · exact .some hbelow
    · exact .none

/-- What the manifest of an assembly declares, if it can be read. -/
theorem toOption_ofAssembly (parse? : String → Option Xml.Element) (t : FileTree)
    (manifest : Path) :
    (ofAssembly parse? t manifest).toOption =
      (t.readText manifest).toOption.bind fun text =>
        (readRoot parse? text).toOption.map fun root =>
        (manifest.parent?.map (declared t root)).getD [] := by
  rw [ofAssembly]
  cases t.readText manifest with
  | error e => rfl
  | ok text => cases hroot : readRoot parse? text <;> simp [hroot, Except.toOption]

/-- Several manifests can be read if the first one can and the others can. -/
theorem toOption_ofAssemblies_cons (parse? : String → Option Xml.Element) (t : FileTree)
    (manifest : Path) (rest : List Path) :
    (ofAssemblies parse? t (manifest :: rest)).toOption =
      (ofAssembly parse? t manifest).toOption.bind fun first =>
        (ofAssemblies parse? t rest).toOption.map (first ++ ·) := by
  rw [ofAssemblies]
  cases ofAssembly parse? t manifest with
  | error e => rfl
  | ok first => cases ofAssemblies parse? t rest <;> rfl

/-- What an application manifest redirects, if it is well-formed, and so are the manifests of its
assemblies. -/
theorem toOption_ofText (parse? : String → Option Xml.Element) (t : FileTree) (text : String)
    (dir : Path) :
    (ofText parse? t text dir).toOption = (readRoot parse? text).toOption.bind fun root =>
      (ofAssemblies parse? t
        ((assemblyNames root).filterMap (assemblyManifest? t dir))).toOption.map
          fun others => ⟨declared t root dir ++ others⟩ := by
  rw [ofText]
  cases readRoot parse? text with
  | error e => rfl
  | ok root =>
    simp only [Except.toOption, Option.bind_some]
    cases ofAssemblies parse? t ((assemblyNames root).filterMap (assemblyManifest? t dir)) <;> rfl

/-- The manifest of an assembly declares the same files, whatever its spelling. -/
theorem rel_ofAssembly (parse? : String → Option Xml.Element)
    (h : t.LeadAlike manifest manifest') :
    Option.Rel EntriesAlike (ofAssembly parse? t manifest).toOption
      (ofAssembly parse? t manifest').toOption := by
  rw [toOption_ofAssembly, toOption_ofAssembly, h.readText]
  cases (t.readText manifest').toOption with
  | none => exact .none
  | some text =>
    cases hroot : (readRoot parse? text).toOption with
    | none => simp [hroot]
    | some root =>
      simp only [Option.bind_some, hroot, Option.map_some]
      refine .some ?_
      have hparent := Path.rel_parent? h.components
      generalize manifest.parent? = dir at hparent ⊢
      generalize manifest'.parent? = dir' at hparent ⊢
      cases hparent with
      | none => exact .nil
      | some heq => exact entriesAlike_declared heq root

/-- Several manifests declare the same files together, whatever their spellings. -/
theorem rel_ofAssemblies {manifests manifests' : List Path}
    (h : List.Forall₂ t.LeadAlike manifests manifests') :
    Option.Rel EntriesAlike (ofAssemblies parse? t manifests).toOption
      (ofAssemblies parse? t manifests').toOption := by
  induction h with
  | nil => exact .some .nil
  | @cons manifest manifest' rest rest' hfirst _ ih =>
    have hfirst := rel_ofAssembly parse? hfirst
    rw [toOption_ofAssemblies_cons, toOption_ofAssemblies_cons]
    generalize (ofAssembly parse? t manifest).toOption = x at hfirst ⊢
    generalize (ofAssembly parse? t manifest').toOption = y at hfirst ⊢
    generalize (ofAssemblies parse? t rest).toOption = xs at ih ⊢
    generalize (ofAssemblies parse? t rest').toOption = ys at ih ⊢
    cases hfirst with
    | none => exact .none
    | some hfirst =>
      cases ih with
      | none => exact .none
      | some hrest => exact .some (List.rel_append hfirst hrest)

/-- An application manifest redirects alike, whatever the spelling of the directory of the
program. -/
theorem rel_ofText (h : dir.components = dir'.components) (text : String) :
    Option.Rel Alike (ofText parse? t text dir).toOption (ofText parse? t text dir').toOption := by
  rw [toOption_ofText, toOption_ofText]
  cases (readRoot parse? text).toOption with
  | none => exact .none
  | some root =>
    have hothers : Option.Rel EntriesAlike
        (ofAssemblies parse? t ((assemblyNames root).filterMap (assemblyManifest? t dir))).toOption
        (ofAssemblies parse? t
          ((assemblyNames root).filterMap (assemblyManifest? t dir'))).toOption :=
      rel_ofAssemblies (List.rel_filterMap (fun _ _ heq => heq ▸ rel_assemblyManifest? h _)
        (List.forall₂_same.2 fun _ _ => rfl))
    simp only [Option.bind_some]
    generalize (ofAssemblies parse? t _).toOption = x at hothers ⊢
    generalize (ofAssemblies parse? t _).toOption = y at hothers ⊢
    cases hothers with
    | none => exact .none
    | some hothers => exact .some (List.rel_append (entriesAlike_declared h root) hothers)

/-- What the manifest next to a module redirects, in a directory that the path of the module goes
through. -/
theorem toOption_ofBinary {name : RawText} (hname : importer.fileName? = some name)
    (hdir : importer.parent? = some dir) :
    (ofBinary t importer).toOption =
      if t.isFile (dir.child (name ++ ".manifest")) then
        (t.readText (dir.child (name ++ ".manifest"))).toOption.bind fun text =>
          (ofText Xml.parse? t text dir).toOption
      else some empty := by
  have hmanifest : sidecar? importer = some (dir.child (name ++ ".manifest")) := by
    rw [sidecar?, hname, Option.map_some, Path.withFileName, hname, hdir]
  rw [ofBinary, hmanifest, hdir]
  dsimp only
  split
  · cases t.readText (dir.child (name ++ ".manifest")) <;> rfl
  · rfl

/-- A module that has no name has no manifest. -/
theorem ofBinary_of_fileName?_eq_none (h : importer.fileName? = none) :
    ofBinary t importer = .ok empty := by
  rw [ofBinary, sidecar?, h]
  rfl

/-- A module that has no parent has no manifest either. -/
theorem ofBinary_of_parent?_eq_none (h : importer.parent? = none) :
    ofBinary t importer = .ok empty := by
  rw [ofBinary, h]
  cases sidecar? importer <;> rfl

/-- A program has like redirections under each spelling of its path. -/
theorem rel_ofBinary (h : importer.components = importer'.components) :
    Option.Rel Alike (ofBinary t importer).toOption (ofBinary t importer').toOption := by
  have hfile : importer.fileName? = importer'.fileName? := by
    rw [Path.fileName?_eq, Path.fileName?_eq, h]
  cases hname : importer.fileName? with
  | none =>
    rw [ofBinary_of_fileName?_eq_none hname, ofBinary_of_fileName?_eq_none (hfile ▸ hname)]
    exact .some (Alike.refl empty)
  | some name =>
    have hparent := Path.rel_parent? h
    generalize hdir : importer.parent? = dir at hparent
    generalize hdir' : importer'.parent? = dir' at hparent
    cases hparent with
    | none =>
      rw [ofBinary_of_parent?_eq_none hdir, ofBinary_of_parent?_eq_none hdir']
      exact .some (Alike.refl empty)
    | some heq =>
      rw [toOption_ofBinary hname hdir, toOption_ofBinary (hfile ▸ hname) hdir']
      have hmanifest := FileTree.leadAlike_child (t := t) heq (name ++ ".manifest")
      rw [hmanifest.isFile, hmanifest.readText]
      split
      · cases (t.readText _).toOption with
        | none => exact .none
        | some text => exact rel_ofText heq text
      · exact .some (Alike.refl empty)

/-- The redirections of a module are alike under all spellings of its path. -/
theorem alike_redirectionsOf (h : importer.components = importer'.components) :
    (redirectionsOf t importer).Alike (redirectionsOf t importer') := by
  have hread : ∀ importer,
      redirectionsOf t importer = (ofBinary t importer).toOption.getD empty := by
    intro importer
    rw [redirectionsOf]
    cases ofBinary t importer <;> rfl
  have hbinary := rel_ofBinary (t := t) h
  rw [hread, hread]
  generalize (ofBinary t importer).toOption = x at hbinary ⊢
  generalize (ofBinary t importer').toOption = y at hbinary ⊢
  cases hbinary with
  | none => exact Alike.refl empty
  | some halike => exact halike

end Redirections

end DllGraph
