import DllGraph.SearchPath.Lookup
import Mathlib.Data.List.TakeWhile
import Mathlib.Order.Basic

/-!
# Where Paths Lead

A folder is listed under its path, and what has been listed once is kept under the components of the
path. This module proves that the components are all that matters: two paths of the same components
list the same files, although one of them may have an empty piece, or a `.`, where the other has
none.

A file is not a folder, so a path that leads to a file is more particular: it ends in a name.

## Main definitions

* `FileTree.descend`, the way from a place along components to a directory;
* `FileTree.IsTree`, that directories lie in directories.

## Main results

* `FileTree.listFiles_congr` — paths of the same components list the same files;
* `FileTree.fileName?_of_load` — a path that leads to a file ends in its file name.
-/

namespace DllGraph

/-! ### The last piece of a path -/

namespace Path

/-- The last piece of a path is what comes after its last separator. -/
theorem getLast?_piecesFrom {piece : List UInt8} (h : ∀ b ∈ piece, inName b = true)
    (bytes : List UInt8) : (piecesFrom piece bytes).getLast? =
      some ((bytes.reverse ++ piece).takeWhile inName).reverse := by
  induction bytes generalizing piece with
  | nil =>
    have htake : piece.takeWhile inName = piece := List.takeWhile_eq_self_iff.2 h
    simp [piecesFrom, htake]
  | cons b rest ih =>
    rw [piecesFrom]
    split
    · next hb =>
      have hrest := @ih [] (by simp)
      have hstop : ((b :: rest).reverse ++ piece).takeWhile inName =
          rest.reverse.takeWhile inName := by
        subst hb
        rw [List.reverse_cons, List.append_assoc, List.takeWhile_append]
        split
        · next hall =>
          rw [(List.takeWhile_prefix _).eq_of_length hall]
          simp [inName]
        · rfl
      rw [List.getLast?_cons, hrest, hstop, List.append_nil, Option.getD_some]
    · next hb =>
      have hpiece : ∀ d ∈ b :: piece, inName d = true := by
        intro d hd
        rcases List.mem_cons.1 hd with rfl | hd
        · exact bne_iff_ne.2 hb
        · exact h d hd
      rw [ih hpiece, List.reverse_cons, List.append_assoc, List.singleton_append]

/-- The last piece of a path is what follows its last separator. -/
theorem getLast?_pieces (p : Path) : p.pieces.getLast? =
    some ⟨(p.raw.bytes.reverse.takeWhile inName).reverse⟩ := by
  rw [pieces, List.getLast?_map, getLast?_piecesFrom (by simp), List.append_nil, Option.map_some]

/-- Nothing is dropped from the end of a path that ends in a name. -/
theorem trimEnd_eq_self {bytes : List UInt8} (hempty : bytes.takeWhile inName ≠ [])
    (hhere : bytes.takeWhile inName ≠ [dot]) : trimEnd bytes = bytes := by
  cases bytes with
  | nil => rfl
  | cons b rest =>
    cases rest with
    | nil => rfl
    | cons c rest =>
      rw [trimEnd, if_neg]
      rintro (rfl | ⟨rfl, rfl⟩)
      · exact hempty rfl
      · exact hhere rfl

/-- The last piece of a path is its file name, unless it is not a name. -/
theorem fileName?_of_getLast? {p : Path} {last : RawText} (h : p.pieces.getLast? = some last)
    (hlast : ¬ (last = "" ∨ last = "." ∨ last = "..")) : p.fileName? = some last := by
  rw [getLast?_pieces, Option.some.injEq] at h
  have hending : p.ending = p.raw.bytes.reverse := by
    refine trimEnd_eq_self (fun hempty => hlast (.inl ?_)) fun hhere => hlast (.inr (.inl ?_))
    · rw [← h, hempty]
      rfl
    · rw [← h, hhere]
      rfl
  simp only [fileName?, hending, h]
  rw [if_neg hlast]

/-- The first piece of a path is empty if the path starts at the root, or is empty itself. -/
theorem head?_piecesFrom {piece bytes : List UInt8}
    (h : (piecesFrom piece bytes).head? = some []) :
    piece = [] ∧ (bytes = [] ∨ bytes.head? = some slash) := by
  induction bytes generalizing piece with
  | nil =>
    rw [piecesFrom, List.head?_cons, Option.some.injEq] at h
    exact ⟨List.reverse_eq_nil_iff.1 h, .inl rfl⟩
  | cons b rest ih =>
    rw [piecesFrom] at h
    split at h
    · next hb =>
      rw [List.head?_cons, Option.some.injEq] at h
      exact ⟨List.reverse_eq_nil_iff.1 h, .inr (congrArg some hb)⟩
    · exact absurd (ih h).1 (List.cons_ne_nil b piece)

/-- A piece stands for no component if it is empty or a `.`. -/
theorem Component.ofPiece?_eq_none_iff {piece : RawText} :
    Component.ofPiece? piece = none ↔ piece = "" ∨ piece = "." := by
  rw [Component.ofPiece?]
  split
  · next h => simp [h]
  · next h => split <;> simp [h]

/-- Every path has a piece, be it empty. -/
theorem pieces_ne_nil (p : Path) : p.pieces ≠ [] := by
  intro hnil
  have hlast := getLast?_pieces p
  rw [hnil] at hlast
  cases hlast

/-- Only the empty path has no components. -/
theorem components_eq_nil_iff {p : Path} : p.components = [] ↔ p.isEmpty = true := by
  constructor
  · intro h
    rw [components] at h
    split at h
    · cases h
    · next habsolute =>
      split at h
      · cases h
      · next hhere =>
        -- The first piece stands for no component, so it is empty, and no separator follows it.
        obtain ⟨first, rest, hpieces⟩ := List.exists_cons_of_ne_nil (pieces_ne_nil p)
        have hnone : Component.ofPiece? first = none :=
          List.filterMap_eq_nil_iff.1 h first (by rw [hpieces]; exact List.mem_cons_self)
        have hempty : first = "" := by
          refine (Component.ofPiece?_eq_none_iff.1 hnone).resolve_right fun hfirst => hhere ?_
          rw [hpieces, hfirst]
          rfl
        have hhead : (piecesFrom [] p.raw.bytes).head? = some [] := by
          obtain ⟨bytes, others, hcut, hfirst, -⟩ := List.map_eq_cons_iff.1 hpieces
          obtain rfl : bytes = [] := congrArg RawText.bytes (hfirst.trans hempty)
          rw [hcut, List.head?_cons]
        rcases (head?_piecesFrom hhead).2 with hbytes | hroot
        · rw [isEmpty, hbytes]
          rfl
        · exact absurd (by simpa [isAbsolute] using hroot) habsolute
  · intro h
    obtain ⟨⟨bytes⟩⟩ := p
    obtain rfl : bytes = [] := List.isEmpty_iff.1 h
    rfl

end Path

namespace FileTree

variable {t : FileTree} {place dest : Place} {p q : Path}

/-! ### Folders -/

/-- Whether a directory lies at a place. -/
def isDirectoryAt (t : FileTree) (place : Place) : Bool :=
  match t.at? place with
  | some .directory => true
  | _ => false

/-- A directory is at a place if and only if there is an entry that says so. -/
theorem isDirectoryAt_iff : t.isDirectoryAt place = true ↔ t.at? place = some .directory := by
  rw [isDirectoryAt]
  split
  · next hat => simp [hat]
  · next hat => simpa using hat

/-- The directory that components lead to from a place. -/
def descend (t : FileTree) : Place → List Path.Component → Option Place
  | place, [] => if t.isDirectoryAt place then some place else none
  | place, component :: rest =>
    if t.isDirectoryAt place then
      match component with
      | .up => t.descend place.dropLast rest
      | .name raw =>
        if (t.at? (place ++ [raw])).isSome then t.descend (place ++ [raw]) rest else none
      | _ => t.descend place rest
    else none

/-- Nothing leads on from a place without a directory. -/
theorem descend_eq_none (h : t.isDirectoryAt place = false) (components : List Path.Component) :
    t.descend place components = none := by
  cases components <;> simp [descend, h]

/-- A walk that ends in a directory goes where the components of its pieces lead. -/
theorem filter_walk (t : FileTree) (place : Place) (pieces : List RawText) :
    (t.walk place pieces).toOption.filter t.isDirectoryAt =
      t.descend place (pieces.filterMap Path.Component.ofPiece?) := by
  induction pieces generalizing place with
  | nil => simp [walk, descend, Except.toOption, Option.filter]
  | cons piece rest ih =>
    cases hat : t.at? place with
    | none =>
      have hdir : t.isDirectoryAt place = false := by rw [isDirectoryAt, hat]
      simp only [walk, hat, descend_eq_none hdir]
      rfl
    | some entry =>
      cases entry with
      | file content =>
        have hdir : t.isDirectoryAt place = false := by rw [isDirectoryAt, hat]
        simp only [walk, hat, descend_eq_none hdir]
        rfl
      | directory =>
        have hdir : t.isDirectoryAt place = true := by rw [isDirectoryAt, hat]
        simp only [walk, hat, List.filterMap_cons, Path.Component.ofPiece?]
        by_cases hstay : piece = "" ∨ piece = "."
        · rw [if_pos hstay, if_pos hstay]
          exact ih place
        · rw [if_neg hstay, if_neg hstay]
          by_cases hup : piece = ".."
          · rw [if_pos hup, if_pos hup]
            simpa only [descend, hdir, if_true] using ih place.dropLast
          · rw [if_neg hup, if_neg hup]
            simp only [descend, hdir, if_true]
            by_cases hthere : (t.at? (place ++ [piece])).isSome
            · rw [if_pos hthere, if_pos hthere]
              exact ih (place ++ [piece])
            · rw [if_neg hthere, if_neg hthere]
              rfl

/-- The directory that components lead to, if they start from the root or the working directory. -/
def directoryOf? (t : FileTree) : List Path.Component → Option Place
  | [] => none
  | .root :: rest => t.descend [] rest
  | components => t.descend t.workingDir components

/-- Where a path leads to, as long as it is a directory, depends on its components only. -/
theorem filter_find (t : FileTree) (p : Path) :
    (t.find p).toOption.filter t.isDirectoryAt = t.directoryOf? p.components := by
  rw [find]
  split
  · next hempty =>
    rw [Path.components_eq_nil_iff.2 hempty]
    rfl
  · next hne =>
    have hcomponents : p.components ≠ [] := fun h => hne (Path.components_eq_nil_iff.1 h)
    rw [filter_walk]
    revert hcomponents
    rw [Path.components]
    cases p.isAbsolute with
    | true => exact fun _ => rfl
    | false =>
      simp only [Bool.false_eq_true, if_false]
      split
      · -- The leading `.` stays where it is, and asks for a directory as whatever follows does.
        intro _
        cases hdir : t.isDirectoryAt t.workingDir with
        | true => simp [directoryOf?, descend, hdir]
        | false => simp [directoryOf?, descend_eq_none hdir]
      · intro hbody
        generalize hlist : p.pieces.filterMap Path.Component.ofPiece? = body at hbody ⊢
        cases body with
        | nil => exact absurd rfl hbody
        | cons first rest =>
          cases first with
          | root =>
            have hroot : Path.Component.root ∈ p.pieces.filterMap Path.Component.ofPiece? := by
              rw [hlist]
              exact List.mem_cons_self ..
            obtain ⟨piece, -, hpiece⟩ := List.mem_filterMap.1 hroot
            simp only [Path.Component.ofPiece?] at hpiece
            split at hpiece
            · cases hpiece
            · split at hpiece <;> cases hpiece
          | here | up | name => rfl

/-- Paths of the same components list the same files. -/
theorem listFiles_congr (h : p.components = q.components) : t.listFiles p = t.listFiles q := by
  have hlist : ∀ p, t.listFiles p = ((t.find p).toOption.filter t.isDirectoryAt).map fun dir =>
      t.entries.filterMap (fileNameIn? dir) := by
    intro p
    rw [listFiles]
    cases t.find p with
    | error cause => rfl
    | ok dir =>
      simp only [Except.toOption, Option.filter_some]
      by_cases hdir : t.isDirectoryAt dir = true
      · rw [if_pos hdir, isDirectoryAt_iff.1 hdir]
        rfl
      · rw [if_neg hdir]
        split
        · next hat => exact absurd (isDirectoryAt_iff.2 hat) hdir
        · rfl
  rw [hlist, hlist, filter_find, filter_find, h]

/-! ### Files -/

/-- Directories lie in directories. -/
def IsTree (t : FileTree) : Prop :=
  ∀ place, t.isDirectoryAt place = true → t.isDirectoryAt place.dropLast = true

/-- Files that all lie in the root are a tree. -/
theorem isTree_of_forall (h : ∀ e ∈ t.entries, e.2 ≠ .directory) : t.IsTree := by
  intro place hdir
  cases place with
  | nil => rfl
  | cons name rest =>
    rw [isDirectoryAt] at hdir
    split at hdir
    · next hat =>
      obtain ⟨before, after, hentries, -⟩ := List.lookup_eq_some_iff.1 hat
      exact absurd rfl (h (name :: rest, .directory) (by rw [hentries]; simp))
    · cases hdir

/-- A walk leads to a directory if it does not end in a name. -/
theorem isDirectoryAt_of_walk (ht : t.IsTree) {pieces : List RawText} {last : RawText}
    (h : t.walk place pieces = .ok dest) (hlast : pieces.getLast? = some last)
    (hname : last = "" ∨ last = "." ∨ last = "..") : t.isDirectoryAt dest = true := by
  induction pieces generalizing place with
  | nil => cases hlast
  | cons piece rest ih =>
    simp only [walk] at h
    split at h
    · cases h
    · cases h
    · next hat =>
      have hdir : t.isDirectoryAt place = true := by rw [isDirectoryAt, hat]
      cases rest with
      | nil =>
        cases hlast
        split at h
        · cases h
          exact hdir
        · next hstay =>
          split at h
          · cases h
            exact ht place hdir
          · next hup => exact absurd (hname.imp_right (Or.resolve_right · hup)) hstay
      | cons second rest =>
        rw [List.getLast?_cons_cons] at hlast
        split at h
        · exact ih h hlast
        · split at h
          · exact ih h hlast
          · split at h
            · exact ih h hlast
            · cases h

/-- A path that leads to a file ends in a name. -/
theorem getLast?_of_find (ht : t.IsTree) (hfind : t.find p = .ok place)
    (hfile : t.isDirectoryAt place = false) {last : RawText}
    (hlast : p.pieces.getLast? = some last) :
    ¬ (last = "" ∨ last = "." ∨ last = "..") := by
  intro hspecial
  rw [find] at hfind
  split at hfind
  · cases hfind
  · rw [isDirectoryAt_of_walk ht hfind hlast hspecial] at hfile
    cases hfile

/-- A file that can be read is found where no directory is. -/
theorem exists_find_of_load {b : ByteArray} (h : t.load p = .ok b) :
    ∃ place, t.find p = .ok place ∧ t.at? place = some (.file b) := by
  rw [load] at h
  split at h
  · cases h
  · next place hfind =>
    split at h
    · next content hat =>
      cases h
      exact ⟨place, hfind, hat⟩
    · cases h

/-- A path whose file can be read has the last piece as its file name. -/
theorem fileName?_of_load (ht : t.IsTree) {b : ByteArray} (h : t.load p = .ok b) :
    p.fileName? = p.pieces.getLast? := by
  obtain ⟨place, hfind, hat⟩ := exists_find_of_load h
  have hfile : t.isDirectoryAt place = false := by rw [isDirectoryAt, hat]
  have hlast := Path.getLast?_pieces p
  rw [Path.fileName?_of_getLast? hlast (getLast?_of_find ht hfind hfile hlast), hlast]

/-- A file that is found at a place is one of the entries of the tree. -/
theorem mem_entries_of_at? {b : ByteArray} (h : t.at? place = some (.file b)) :
    (place, Entry.file b) ∈ t.entries := by
  cases place with
  | nil => cases h
  | cons name rest =>
    obtain ⟨before, after, hentries, -⟩ := List.lookup_eq_some_iff.1 h
    rw [hentries]
    simp

end FileTree

end DllGraph
