import DllGraph.Proofs.FileTree

/-!
# Spellings of a Path

One sequence of components has many spellings: a separator may be written twice, or stand at the
end, and so may a `.`. This module proves that a lookup, which takes paths apart and builds others
from them, does the same with all spellings. The parent of a path, its last name, and the path of a
name inside it depend on the components, and so does the place that a name inside a folder leads
to, be it a file or a folder.

A spelling does matter for a path itself: with a separator at its end it leads to no file.

## Main definitions

* `Path.body`, the components of a path without the one that says where it starts;
* `FileTree.LeadAlike`, two spellings of one path that lead to the same place.

## Main results

* `Path.components_cases` — the last component of a path, and what comes before it;
* `Path.components_join`, `Path.components_parent?` and `Path.fileName?_eq` — building a path and
  taking one apart, in terms of components;
* `FileTree.leadAlike_child` — a name inside a folder leads to the same place, however the folder is
  spelled.
-/

namespace DllGraph

namespace Path

/-! ### Components -/

/-- A path from its bytes. -/
def ofBytes (bytes : List UInt8) : Path :=
  ⟨⟨bytes⟩⟩

/-- The components of a path, without the one that says where it starts. -/
def body (p : Path) : List Component :=
  p.pieces.filterMap Component.ofPiece?

theorem ofBytes_bytes (p : Path) : ofBytes p.raw.bytes = p := rfl

/-- Bytes are cut at a separator into what is before it and what is after it. -/
theorem piecesFrom_append (piece xs ys : List UInt8) :
    piecesFrom piece (xs ++ slash :: ys) = piecesFrom piece xs ++ piecesFrom [] ys := by
  induction xs generalizing piece with
  | nil => simp [piecesFrom]
  | cons c rest ih =>
    simp only [List.cons_append, piecesFrom]
    split
    · rw [ih, List.cons_append]
    · rw [ih]

/-- The pieces of a path are those before a separator and those after it. -/
theorem pieces_append (xs ys : List UInt8) :
    (ofBytes (xs ++ slash :: ys)).pieces = (ofBytes xs).pieces ++ (ofBytes ys).pieces := by
  simp only [pieces, ofBytes, piecesFrom_append, List.map_append]

/-- There is always a first piece. -/
theorem head?_pieces_append (p : Path) (rest : List RawText) :
    (p.pieces ++ rest).head? = p.pieces.head? := by
  have hsome : (piecesFrom [] p.raw.bytes).getLast?.isSome := by
    rw [getLast?_piecesFrom (by simp)]
    rfl
  cases h : piecesFrom [] p.raw.bytes with
  | nil =>
    rw [h] at hsome
    cases hsome
  | cons first others =>
    rw [pieces, h]
    rfl

/-- What is written after a separator adds its own components. -/
theorem components_append (xs ys : List UInt8) : (ofBytes (xs ++ slash :: ys)).components =
    (ofBytes (xs ++ [slash])).components ++ (ofBytes ys).body := by
  have habsolute : (ofBytes (xs ++ slash :: ys)).isAbsolute =
      (ofBytes (xs ++ [slash])).isAbsolute := by
    cases xs <;> simp [isAbsolute, ofBytes]
  have hnil : (ofBytes []).pieces.filterMap Component.ofPiece? = [] := rfl
  simp only [components, habsolute, pieces_append, head?_pieces_append, List.filterMap_append, hnil,
    List.append_nil, body]
  split
  · rfl
  · split <;> rfl

/-- A separator at the end adds no component, unless it is the root. -/
theorem components_append_separator {xs : List UInt8} (h : xs ≠ []) :
    (ofBytes (xs ++ [slash])).components = (ofBytes xs).components := by
  have habsolute : (ofBytes (xs ++ [slash])).isAbsolute = (ofBytes xs).isAbsolute := by
    cases xs with
    | nil => exact absurd rfl h
    | cons c rest => simp [isAbsolute, ofBytes]
  have hnil : (ofBytes []).pieces.filterMap Component.ofPiece? = [] := rfl
  simp only [components, habsolute, pieces_append, head?_pieces_append, List.filterMap_append, hnil,
    List.append_nil]

/-- What is dropped from the end of a path does not matter. -/
theorem components_trimEnd (cs : List UInt8) :
    (ofReversed (trimEnd cs)).components = (ofReversed cs).components := by
  induction cs using trimEnd.induct with
  | case1 b c rest hdrop ih =>
    rw [trimEnd, if_pos hdrop, ih]
    rcases hdrop with rfl | ⟨rfl, rfl⟩
    · have hcs : ofReversed (slash :: c :: rest) = ofBytes ((c :: rest).reverse ++ [slash]) := by
        rw [ofReversed, List.reverse_cons, ofBytes]
      rw [hcs, components_append_separator (by simp)]
      rfl
    · have hcs : ofReversed (dot :: slash :: rest) = ofBytes (rest.reverse ++ slash :: [dot]) := by
        simp [ofReversed, ofBytes]
      have hrest : ofReversed (slash :: rest) = ofBytes (rest.reverse ++ [slash]) := by
        rw [ofReversed, List.reverse_cons, ofBytes]
      have hbody : (ofBytes [dot]).body = [] := rfl
      rw [hcs, hrest, components_append rest.reverse [dot], hbody, List.append_nil]
  | case2 b c rest hstay => rw [trimEnd, if_neg hstay]
  | case3 cs hshort => rw [trimEnd.eq_2 _ hshort]

/-! ### Taking a path apart -/

/-- The name that a component is, if it is one. -/
def Component.name? : Component → Option RawText
  | .name raw => some raw
  | _ => none

/-- What is left of a path without what does not matter at its end: nothing, the root, or a path
that ends in a piece that stands for a component. -/
theorem trimEnd_cases (cs : List UInt8) : trimEnd cs = [] ∨ trimEnd cs = [slash] ∨
    (trimEnd cs).takeWhile inName ≠ [] ∧
      ((trimEnd cs).takeWhile inName = [dot] → (trimEnd cs).dropWhile inName = []) := by
  induction cs using trimEnd.induct with
  | case1 b c rest hdrop ih =>
    rw [trimEnd, if_pos hdrop]
    exact ih
  | case2 b c rest hstay =>
    have hb : inName b = true := bne_iff_ne.2 fun heq => hstay (.inl heq)
    rw [trimEnd, if_neg hstay]
    refine .inr (.inr ⟨by simp [hb], fun hhere => ?_⟩)
    rw [List.takeWhile_cons_of_pos hb, List.cons.injEq] at hhere
    obtain ⟨rfl, hrest⟩ := hhere
    -- A `.` is followed by a separator if it is a piece of its own, and is dropped then.
    by_cases hc : inName c = true
    · simp [hc] at hrest
    · exact absurd (.inr ⟨rfl, by simpa [inName] using hc⟩) hstay
  | case3 cs hshort =>
    rw [trimEnd.eq_2 _ hshort]
    cases cs with
    | nil => exact .inl rfl
    | cons b rest =>
      obtain rfl : rest = [] := by
        cases rest with
        | nil => rfl
        | cons c rest => exact absurd rfl (hshort b c rest)
      by_cases hb : inName b = true
      · exact .inr (.inr ⟨by simp [hb], fun _ => by simp [hb]⟩)
      · exact .inr (.inl (by simpa [inName] using hb))

/-- The name that a piece is taken for, if it is taken for one. -/
def nameOfPiece? (piece : RawText) : Option RawText :=
  if piece = "" ∨ piece = "." ∨ piece = ".." then none else some piece

/-- A piece that counts stands for a component, which is not the root. -/
theorem exists_ofPiece?_eq {piece : RawText} (hempty : piece ≠ "") (hhere : piece ≠ ".") :
    ∃ last : Component, Component.ofPiece? piece = some last ∧ last ≠ .root ∧
      last.name? = nameOfPiece? piece := by
  simp only [Component.ofPiece?, nameOfPiece?, hempty, hhere, false_or, if_false]
  split
  · exact ⟨.up, rfl, Component.noConfusion, rfl⟩
  · exact ⟨.name piece, rfl, Component.noConfusion, rfl⟩

/-- Bytes without a separator are one piece. -/
theorem piecesFrom_of_inName {piece rest : List UInt8} (h : ∀ c ∈ rest, inName c = true) :
    piecesFrom piece rest = [piece.reverse ++ rest] := by
  induction rest generalizing piece with
  | nil => simp [piecesFrom]
  | cons c rest ih =>
    have hc : c ≠ slash := bne_iff_ne.1 (h c List.mem_cons_self)
    rw [piecesFrom, if_neg hc, ih fun d hd => h d (List.mem_cons_of_mem c hd)]
    simp

/-- A path without a separator is one piece. -/
theorem pieces_of_inName {cs : List UInt8} (h : ∀ c ∈ cs, inName c = true) :
    (ofBytes cs).pieces = [RawText.mk cs] := by
  simp [pieces, ofBytes, piecesFrom_of_inName h]

/-- A raw text with a byte is not the empty text. -/
theorem mk_ne_empty {cs : List UInt8} (h : cs ≠ []) : RawText.mk cs ≠ "" :=
  fun heq => h (congrArg RawText.bytes heq)

/-- A path of a single piece has a single component. -/
theorem exists_components_of_inName {cs : List UInt8} (h : ∀ c ∈ cs, inName c = true)
    (hne : cs ≠ []) : ∃ last : Component, last ≠ .root ∧ (ofBytes cs).components = [last] ∧
      last.name? = nameOfPiece? (RawText.mk cs) := by
  have habsolute : (ofBytes cs).isAbsolute = false := by
    cases cs with
    | nil => exact absurd rfl hne
    | cons c rest =>
      have hc : c ≠ slash := bne_iff_ne.1 (h c List.mem_cons_self)
      simp [isAbsolute, ofBytes, hc]
  have hempty : RawText.mk cs ≠ "" := mk_ne_empty hne
  simp only [components, habsolute, pieces_of_inName h, List.head?_cons, Option.some.injEq]
  by_cases hhere : RawText.mk cs = "."
  · exact ⟨.here, Component.noConfusion, by simp [hhere, Component.ofPiece?],
      by simp [hhere, nameOfPiece?, Component.name?]⟩
  · obtain ⟨last, hlast, hroot, hname⟩ := exists_ofPiece?_eq hempty hhere
    exact ⟨last, hroot, by simp [hhere, hlast], hname⟩

/-- A path has neither a parent nor a name, and is the root or empty, or it consists of its parent
and one more component. -/
theorem components_cases (p : Path) :
    (p.parent? = none ∧ p.fileName? = none ∧ (p.components = [] ∨ p.components = [.root])) ∨
      ∃ dir last, p.parent? = some dir ∧ last ≠ .root ∧ p.components = dir.components ++ [last] ∧
        p.fileName? = last.name? := by
  have hself : p.components = (ofReversed p.ending).components := by
    rw [ending, components_trimEnd, ofReversed, List.reverse_reverse]
  have hfile : p.fileName? = nameOfPiece? (RawText.mk (p.ending.takeWhile inName).reverse) := rfl
  rw [hself, hfile, parent?]
  rcases trimEnd_cases p.raw.bytes.reverse with h | h | ⟨hname, hhere⟩
  · rw [show p.ending = [] from h]
    exact .inl ⟨rfl, rfl, .inl rfl⟩
  · rw [show p.ending = [slash] from h]
    exact .inl ⟨rfl, rfl, .inr rfl⟩
  · change p.ending.takeWhile inName ≠ [] at hname
    change p.ending.takeWhile inName = [dot] → p.ending.dropWhile inName = [] at hhere
    have hsplit : p.ending.takeWhile inName ++ p.ending.dropWhile inName = p.ending :=
      List.takeWhile_append_dropWhile
    have hinName : ∀ c ∈ (p.ending.takeWhile inName).reverse, inName c = true := fun c hc =>
      (List.mem_takeWhile_imp (List.mem_reverse.1 hc))
    have hnonempty : (p.ending.takeWhile inName).reverse ≠ [] :=
      fun h => hname (List.reverse_eq_nil_iff.1 h)
    have hparent : ¬ (p.ending = [] ∨ p.ending = [slash]) := by
      rintro (h | h) <;> exact hname (by rw [h]; rfl)
    rw [if_neg hparent]
    cases hrest : p.ending.dropWhile inName with
    | nil =>
      obtain ⟨last, hroot, hlast, htext⟩ := exists_components_of_inName hinName hnonempty
      rw [hrest, List.append_nil] at hsplit
      refine .inr ⟨_, last, rfl, hroot, ?_, htext.symm⟩
      rw [← hsplit]
      exact hlast
    | cons c above =>
      have hc : c = slash := by
        have hstop := List.head?_dropWhile_not inName p.ending
        rw [hrest] at hstop
        simpa [inName] using hstop
      subst hc
      have hdot : (p.ending.takeWhile inName).reverse ≠ [dot] := fun h => by
        rw [hhere (by simpa using congrArg List.reverse h)] at hrest
        cases hrest
      obtain ⟨last, hlast, hroot, htext⟩ := exists_ofPiece?_eq (mk_ne_empty hnonempty)
        (fun heq => hdot (congrArg RawText.bytes heq))
      have hbytes : ofReversed p.ending =
          ofBytes (above.reverse ++ slash :: (p.ending.takeWhile inName).reverse) := by
        rw [hrest] at hsplit
        have hreverse := congrArg List.reverse hsplit
        rw [List.reverse_append, List.reverse_cons, List.append_assoc] at hreverse
        rw [ofReversed, ofBytes, ← hreverse]
        rfl
      have hbody : (ofBytes (p.ending.takeWhile inName).reverse).body = [last] := by
        rw [body, pieces_of_inName hinName]
        simp [hlast]
      refine .inr ⟨_, last, rfl, hroot, ?_, htext.symm⟩
      rw [hbytes, components_append, hbody, components_trimEnd, ofReversed, List.reverse_cons,
        ofBytes]

/-- The parent of a path has all of its components but the last. -/
theorem components_parent? (p : Path) : p.parent?.map components =
    if p.components = [] ∨ p.components = [.root] then none else some p.components.dropLast := by
  rcases components_cases p with ⟨hparent, -, hnone⟩ | ⟨dir, last, hparent, hroot, heq, -⟩
  · rw [hparent, if_pos hnone]
    rfl
  · rw [hparent, heq, List.dropLast_concat, if_neg]
    · rfl
    · rintro (h | h)
      · simp at h
      · cases List.append_eq_singleton_iff.1 h with
        | inl h => exact hroot (by simpa using h.2)
        | inr h => simp at h

/-- The parents of two spellings of a path are two spellings of its parent. -/
theorem rel_parent? {p q : Path} (h : p.components = q.components) :
    Option.Rel (fun dir dir' => dir.components = dir'.components) p.parent? q.parent? := by
  have hparent : p.parent?.map components = q.parent?.map components := by
    rw [components_parent?, components_parent?, h]
  cases hp : p.parent? with
  | none =>
    rw [hp] at hparent
    rw [Option.map_eq_none_iff.1 hparent.symm]
    exact .none
  | some dir =>
    rw [hp] at hparent
    obtain ⟨dir', hq, heq⟩ := Option.map_eq_some_iff.1 hparent.symm
    rw [hq]
    exact .some heq.symm

/-- The file name of a path is its last component, if that is a name. -/
theorem fileName?_eq (p : Path) : p.fileName? = p.components.getLast?.bind Component.name? := by
  rcases components_cases p with ⟨-, hname, h | h⟩ | ⟨dir, last, -, -, heq, hname⟩
  · rw [hname, h]
    rfl
  · rw [hname, h]
    rfl
  · rw [hname, heq, List.getLast?_concat, Option.bind_some]

/-! ### Building a path -/

variable {p q r : Path}

/-- A relative path that is joined to a folder comes after a separator, which the folder may end in
already. -/
theorem exists_join_eq (hr : r.isAbsolute = false) (hp : ¬ p.isEmpty) :
    ∃ xs, p.join r = ofBytes (xs ++ slash :: r.raw.bytes) ∧
      (p = ofBytes xs ∧ xs ≠ [] ∨ p = ofBytes (xs ++ [slash])) := by
  have hnil : p.raw.bytes ≠ [] := fun h => hp (List.isEmpty_iff.2 h)
  rw [join, hr, if_neg Bool.false_ne_true, List.getLast?_eq_some_getLast hnil]
  dsimp only
  split
  · next hlast =>
    have hsplit := List.dropLast_concat_getLast hnil
    rw [hlast] at hsplit
    refine ⟨p.raw.bytes.dropLast, ?_, .inr ?_⟩
    · rw [ofBytes, mk.injEq, RawText.mk.injEq]
      rw [RawText.bytes_append, ← hsplit, List.append_assoc, List.singleton_append,
        List.dropLast_concat]
    · rw [hsplit, ofBytes_bytes]
  · refine ⟨p.raw.bytes, ?_, .inl ⟨(ofBytes_bytes p).symm, hnil⟩⟩
    rw [ofBytes, mk.injEq, RawText.mk.injEq]
    exact List.append_assoc ..

/-- A relative path adds its own components to the folder that it is joined to. -/
theorem components_join (hr : r.isAbsolute = false) (hp : ¬ p.isEmpty) :
    (p.join r).components = p.components ++ r.body := by
  obtain ⟨xs, hjoin, ⟨rfl, hxs⟩ | rfl⟩ := exists_join_eq hr hp
  · rw [hjoin, components_append, components_append_separator hxs, ofBytes_bytes]
  · rw [hjoin, components_append, ofBytes_bytes]

/-- The empty path has one spelling only. -/
theorem eq_of_isEmpty (h : p.components = q.components) (hp : p.isEmpty) : p = q := by
  have hq : q.isEmpty := components_eq_nil_iff.1 (h ▸ components_eq_nil_iff.2 hp)
  rw [← ofBytes_bytes p, ← ofBytes_bytes q, List.isEmpty_iff.1 hp, List.isEmpty_iff.1 hq]

/-- Joining a path to two spellings of a folder gives two spellings of one path. -/
theorem components_join_congr (h : p.components = q.components) (r : Path) :
    (p.join r).components = (q.join r).components := by
  cases hr : r.isAbsolute with
  | true => rw [join, join, hr]; rfl
  | false =>
    by_cases hp : p.isEmpty
    · rw [eq_of_isEmpty h hp]
    · have hq : ¬ q.isEmpty := fun hq => hp (by rw [← eq_of_isEmpty h.symm hq, hq])
      rw [components_join hr hp, components_join hr hq, h]

end Path

/-! ### Results without their errors -/

/-- A result is there if and only if it is not a failure. -/
theorem toOption_eq_some_iff {ε α : Type} {x : Except ε α} {a : α} :
    x.toOption = some a ↔ x = .ok a := by
  cases x <;> simp [Except.toOption]

/-- Nothing is there if and only if there is a failure. -/
theorem toOption_eq_none_iff {ε α : Type} {x : Except ε α} :
    x.toOption = none ↔ ∃ e, x = .error e := by
  cases x <;> simp [Except.toOption]

namespace FileTree

variable {t : FileTree} {p q : Path}

/-! ### Where a joined path leads -/

/-- No components lead nowhere else. -/
theorem toOption_walk_nil (place : Place) : (t.walk place []).toOption = some place := by
  rw [walk, Except.toOption]

/-- A piece needs a directory to stand in. -/
theorem toOption_walk_cons {place : Place} (h : t.isDirectoryAt place = false) (piece : RawText)
    (rest : List RawText) : (t.walk place (piece :: rest)).toOption = none := by
  rw [walk]
  split
  · rfl
  · rfl
  · next hat =>
    rw [isDirectoryAt_iff.2 hat] at h
    cases h

/-- A walk goes on from where its first part ends, if there is a directory. -/
theorem walk_append {ys : List RawText} (h : ys ≠ []) (place : Place) (xs : List RawText) :
    (t.walk place (xs ++ ys)).toOption =
      ((t.walk place xs).toOption.filter t.isDirectoryAt).bind fun dir =>
        (t.walk dir ys).toOption := by
  induction xs generalizing place with
  | nil =>
    rw [List.nil_append, toOption_walk_nil, Option.filter_some]
    cases hdir : t.isDirectoryAt place with
    | true => rfl
    | false =>
      obtain ⟨piece, rest, rfl⟩ := List.exists_cons_of_ne_nil h
      exact toOption_walk_cons hdir piece rest
  | cons piece rest ih =>
    simp only [List.cons_append, walk]
    cases t.at? place with
    | none => rfl
    | some entry =>
      cases entry with
      | file content => rfl
      | directory =>
        dsimp only
        split
        · exact ih place
        · split
          · exact ih place.dropLast
          · split
            · exact ih (place ++ [piece])
            · rfl

/-- A relative path that is joined to a folder leads where it leads from that folder. -/
theorem find_join {r : Path} (hr : r.isAbsolute = false) (hp : ¬ p.isEmpty) :
    (t.find (p.join r)).toOption =
      (t.directoryOf? p.components).bind fun dir => (t.walk dir r.pieces).toOption := by
  obtain ⟨xs, hjoin, hchars⟩ := Path.exists_join_eq hr hp
  have hne : ¬ (p.join r).isEmpty := fun h => by
    rw [hjoin, Path.isEmpty, List.isEmpty_iff] at h
    simp [Path.ofBytes] at h
  have hpieces : (p.join r).pieces = (Path.ofBytes xs).pieces ++ r.pieces := by
    rw [hjoin, Path.pieces_append, Path.ofBytes_bytes]
  -- A path that is not empty is walked from the root if it starts there.
  have hstart : ∀ q : Path, ¬ q.isEmpty →
      t.find q = t.walk (if q.isAbsolute then [] else t.workingDir) q.pieces :=
    fun q hq => by rw [find, if_neg hq]
  have habsolute : (p.join r).isAbsolute = p.isAbsolute := by
    rw [hjoin]
    rcases hchars with ⟨rfl, hxs⟩ | rfl
    · obtain ⟨c, rest, rfl⟩ := List.exists_cons_of_ne_nil hxs
      simp [Path.isAbsolute, Path.ofBytes]
    · cases xs <;> simp [Path.isAbsolute, Path.ofBytes]
  rw [← filter_find, hstart p hp, hstart (p.join r) hne, habsolute, hpieces,
    walk_append (Path.pieces_ne_nil r), filter_walk, filter_walk]
  rcases hchars with ⟨rfl, -⟩ | rfl
  · rfl
  · -- The separator at the end of the folder leaves an empty piece, which stands for nothing.
    rw [Path.pieces_append, List.filterMap_append]
    exact congrArg (fun cs => (t.descend _ cs).bind _) (List.append_nil _).symm

/-- A path that is joined to a folder leads to the same place, however the folder is spelled. -/
theorem find_join_congr (h : p.components = q.components) (r : Path) :
    (t.find (p.join r)).toOption = (t.find (q.join r)).toOption := by
  cases hr : r.isAbsolute with
  | true => rw [Path.join, Path.join, hr]; rfl
  | false =>
    by_cases hp : p.isEmpty
    · rw [Path.eq_of_isEmpty h hp]
    · have hq : ¬ q.isEmpty := fun hq => hp (by rw [← Path.eq_of_isEmpty h.symm hq, hq])
      rw [find_join hr hp, find_join hr hq, h]

/-- Two spellings of one path that lead to the same place, if to any. -/
structure LeadAlike (t : FileTree) (p q : Path) : Prop where
  components : p.components = q.components
  find : (t.find p).toOption = (t.find q).toOption

/-- A name inside a folder leads to the same place, however the folder is spelled. -/
theorem leadAlike_child (h : p.components = q.components) (name : RawText) :
    t.LeadAlike (p.child name) (q.child name) :=
  ⟨Path.components_join_congr h ⟨name⟩, find_join_congr h ⟨name⟩⟩

namespace LeadAlike

/-- Paths that lead alike lead to the same entry. -/
theorem entry? (h : t.LeadAlike p q) : t.entry? p = t.entry? q := by
  have hentry : ∀ p, t.entry? p = (t.find p).toOption.bind t.at? := by
    intro p
    rw [FileTree.entry?]
    cases t.find p <;> rfl
  rw [hentry, hentry, h.find]

/-- Of paths that lead alike, both lead to a file or none does. -/
theorem isFile (h : t.LeadAlike p q) : t.isFile p = t.isFile q := by
  rw [FileTree.isFile, FileTree.isFile, h.entry?]

/-- The text of a file is read from either of two spellings, or from neither. -/
theorem readText (h : t.LeadAlike p q) : (t.readText p).toOption = (t.readText q).toOption := by
  have htext : ∀ p, (t.readText p).toOption = (t.entry? p).bind fun
      | .file content => String.fromUTF8? content
      | .directory => none := by
    intro p
    rw [FileTree.readText, FileTree.entry?]
    cases t.find p with
    | error cause => rfl
    | ok place =>
      cases hat : t.at? place with
      | none => simp [hat, Except.toOption]
      | some e =>
        cases e with
        | directory => simp [hat, Except.toOption]
        | file content =>
          cases hutf : String.fromUTF8? content <;> simp [hat, hutf, Except.toOption]
  rw [htext, htext, h.entry?]

end LeadAlike

end FileTree

end DllGraph
