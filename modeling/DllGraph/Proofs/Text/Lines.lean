import DllGraph.Proofs.Imports
import Mathlib.Data.List.Basic
import Mathlib.Data.List.DropRight
import Mathlib.Data.List.TakeWhile

/-!
# Trimmed Lines

Lists and search paths are read from texts in the same way: the text is cut into lines, each line is
trimmed, and the lines that count are kept. What comes out depends on less than the text. White
space around a line does not matter, so neither does it matter whether lines end in a line feed
alone or in a carriage return and a line feed, and a line feed at the end of the text makes no
further line that would count.

The cutting is stated without reference to how lines are found: a text is cut into pieces if it is
these pieces with a line feed between any two neighbours, and no piece contains a line feed
(`Text.IsCutInto`). Every text is cut into some pieces, and they stand for its lines.

## Main definitions

* `Text.IsBlank`, texts of white space only;
* `Text.IsCutInto`, the pieces of a text between its line feeds;
* `Text.IsLineEnd`, the two ways to end a line;
* `Text.Reformats`, the changes of layout.

## Main results

* `Text.trim_pad` — white space around a text does not change what is left of it;
* `Text.trim_asciiLowercase` — trimming commutes with lowercasing;
* `Text.filter_trim_lines` — the lines that count are the pieces that count, with either line end;
* `Text.Reformats.filter_trim` — a change of layout leaves the lines that count as they are.
-/

namespace DllGraph.Text

/-! ### Letters -/

/-- A character that is not ASCII is not an uppercase letter here. -/
theorem isUpper_of_not_ascii {c : Char} (h : ¬ c.toNat < 0x80) : c.isUpper = false :=
  decide_eq_false fun hupper =>
    h (Nat.lt_of_le_of_lt (UInt32.le_iff_toNat_le.1 hupper.2) (by decide))

/-- A character that is not an uppercase letter stays as it is. -/
theorem toLower_of_not_isUpper {c : Char} (h : c.isUpper = false) : c.toLower = c :=
  dif_neg (of_decide_eq_false h)

/-- No letter turns into white space, or white space into a letter. -/
theorem isBlank_toLower (c : Char) : isBlank c.toLower = isBlank c := by
  by_cases hc : c.toNat < 0x80
  · exact forall_ascii (P := fun c => isBlank c.toLower = isBlank c) (by decide) hc
  · rw [toLower_of_not_isUpper (isUpper_of_not_ascii hc)]

/-! ### Trimming -/

/-- A text of white space only. -/
def IsBlank (s : String) : Prop :=
  ∀ c ∈ s.toList, isBlank c = true

theorem isBlank_empty : IsBlank "" := by simp [IsBlank]

/-- White space behind a text is trimmed. -/
theorem trimChars_append_of_blank {cs ws : List Char} (h : ∀ c ∈ ws, isBlank c = true) :
    trimChars (cs ++ ws) = trimChars cs := by
  have hws : ws.dropWhile isBlank = [] := List.dropWhile_eq_nil_iff.2 h
  have hreversed : ∀ c ∈ ws.reverse, isBlank c = true := fun c hc => h c (List.mem_reverse.1 hc)
  rw [trimChars, trimChars, List.dropWhile_append]
  split
  · next hcs => rw [hws, List.isEmpty_iff.1 hcs]
  · rw [List.reverse_append, List.dropWhile_append_of_pos hreversed]

/-- White space before a text is trimmed. -/
theorem trimChars_blank_append {cs ws : List Char} (h : ∀ c ∈ ws, isBlank c = true) :
    trimChars (ws ++ cs) = trimChars cs := by
  rw [trimChars, List.dropWhile_append_of_pos h, trimChars]

/-- Trimming takes white space away and nothing else. -/
theorem exists_eq_append_trimChars (cs : List Char) : ∃ before after : List Char,
    (∀ c ∈ before, isBlank c = true) ∧ (∀ c ∈ after, isBlank c = true) ∧
      cs = before ++ trimChars cs ++ after := by
  refine ⟨cs.takeWhile isBlank, (cs.dropWhile isBlank).rtakeWhile isBlank,
    fun c hc => List.mem_takeWhile_imp hc, fun c hc => List.mem_rtakeWhile_imp hc, ?_⟩
  have hright : trimChars cs ++ (cs.dropWhile isBlank).rtakeWhile isBlank =
      cs.dropWhile isBlank := List.rdropWhile_append_rtakeWhile ..
  rw [List.append_assoc, hright, List.takeWhile_append_dropWhile]

/-- Trimming twice is trimming once. -/
theorem trimChars_trimChars (cs : List Char) : trimChars (trimChars cs) = trimChars cs := by
  obtain ⟨before, after, hbefore, hafter, hcs⟩ := exists_eq_append_trimChars cs
  conv_rhs => rw [hcs, trimChars_append_of_blank hafter, trimChars_blank_append hbefore]

/-- What is left after trimming was there before. -/
theorem mem_of_mem_trimChars {cs : List Char} {c : Char} (h : c ∈ trimChars cs) : c ∈ cs := by
  obtain ⟨before, after, -, -, hcs⟩ := exists_eq_append_trimChars cs
  rw [hcs]
  simp [h]

/-- Trimming commutes with lowercasing, character by character. -/
theorem trimChars_map_toLower (cs : List Char) :
    trimChars (cs.map Char.toLower) = (trimChars cs).map Char.toLower := by
  have hblank : isBlank ∘ Char.toLower = isBlank := funext isBlank_toLower
  simp only [trimChars, List.dropWhile_map, ← List.map_reverse, hblank]

/-- A text is trimmed character by character. -/
@[simp]
theorem toList_trim (s : String) : (trim s).toList = trimChars s.toList :=
  String.toList_ofList

/-- Trimming a text twice is trimming it once. -/
@[simp]
theorem trim_trim (s : String) : trim (trim s) = trim s := by
  rw [trim, toList_trim, trimChars_trimChars, trim]

/-- White space around a text does not change what is left of it. -/
theorem trim_pad {before after : String} (s : String) (hbefore : IsBlank before)
    (hafter : IsBlank after) : trim (before ++ s ++ after) = trim s := by
  rw [trim, String.toList_append, String.toList_append, trimChars_append_of_blank hafter,
    trimChars_blank_append hbefore, trim]

/-- Trimming commutes with lowercasing. -/
theorem trim_asciiLowercase (s : String) : trim (asciiLowercase s) = asciiLowercase (trim s) := by
  rw [trim, asciiLowercase, String.toList_ofList, trimChars_map_toLower, asciiLowercase,
    toList_trim]

/-! ### Lines -/

/-- A text that ends a line: a line feed, which a carriage return may come before. -/
def IsLineEnd (s : String) : Prop :=
  s = "\n" ∨ s = "\r\n"

/-- The pieces of a text between its line feeds. -/
structure IsCutInto (text : String) (pieces : List String) : Prop where
  text_eq : text = "\n".intercalate pieces
  noFeed : ∀ piece ∈ pieces, '\n' ∉ piece.toList

/-- No piece has a line feed. -/
theorem not_mem_of_mem_splitOn {cs : List Char} : ∀ piece ∈ cs.splitOn '\n', '\n' ∉ piece := by
  induction cs with
  | nil => simp
  | cons c rest ih =>
    rw [List.splitOn_cons_eq_if_modifyHead]
    split
    · simpa using ih
    · next hc =>
      obtain ⟨first, others, hrest⟩ := List.exists_cons_of_ne_nil (List.splitOn_ne_nil '\n' rest)
      rw [hrest, List.forall_mem_cons] at ih
      rw [hrest, List.modifyHead_cons, List.forall_mem_cons]
      refine ⟨fun hmem => ?_, ih.2⟩
      rcases List.mem_cons.1 hmem with rfl | hmem
      · exact hc (beq_self_eq_true _)
      · exact ih.1 hmem

/-- Every text is cut into some pieces. -/
theorem exists_isCutInto (text : String) : ∃ pieces, IsCutInto text pieces := by
  refine ⟨(text.toList.splitOn '\n').map String.ofList, ?_, fun piece hpiece => ?_⟩
  · have hchars : String.toList ∘ String.ofList = id := funext fun cs => String.toList_ofList
    rw [← String.toList_inj, String.toList_intercalate, List.map_map, hchars, List.map_id]
    exact (List.intercalate_splitOn '\n').symm
  · obtain ⟨cs, hcs, rfl⟩ := List.mem_map.1 hpiece
    rw [String.toList_ofList]
    exact not_mem_of_mem_splitOn cs hcs

/-- Characters without a line feed are added to the current line. -/
theorem linesFrom_append {line piece rest : List Char} (h : '\n' ∉ piece) :
    linesFrom line (piece ++ rest) = linesFrom (piece.reverse ++ line) rest := by
  induction piece generalizing line with
  | nil => rfl
  | cons c piece ih =>
    obtain ⟨hc, hpiece⟩ := List.ne_and_not_mem_of_not_mem_cons h
    rw [List.cons_append, linesFrom, if_neg hc.symm, ih hpiece, List.reverse_cons,
      List.append_assoc, List.singleton_append]

/-- A carriage return at the end of a line is trimmed anyway. -/
theorem trimChars_dropReturn (line : List Char) :
    trimChars (dropReturn line).reverse = trimChars line.reverse := by
  unfold dropReturn
  split
  · next rest => rw [List.reverse_cons, trimChars_append_of_blank (List.forall_mem_singleton.2 rfl)]
  · rfl

variable {piece : String}

/-- A text without a line feed is one line, or none if it is empty. -/
theorem lines_of_noFeed (h : '\n' ∉ piece.toList) :
    lines piece = if piece = "" then [] else [piece] := by
  have hchars : linesFrom [] piece.toList = linesFrom piece.toList.reverse [] := by
    simpa using @linesFrom_append [] piece.toList [] h
  rw [lines, hchars]
  split
  · next hempty =>
    subst hempty
    rfl
  · next hne =>
    obtain ⟨c, rest, hreverse⟩ := List.exists_cons_of_ne_nil
      (l := piece.toList.reverse) (by simpa using hne)
    rw [hreverse, linesFrom, ← hreverse, List.reverse_reverse, List.map_singleton,
      String.ofList_toList]
    simp

/-- What comes before a line feed is a line by itself, up to white space. -/
theorem exists_lines_append_feed (rest : String) (h : '\n' ∉ piece.toList) :
    ∃ line, trim line = trim piece ∧ lines (piece ++ "\n" ++ rest) = line :: lines rest := by
  refine ⟨String.ofList (dropReturn piece.toList.reverse).reverse, ?_, ?_⟩
  · rw [trim, String.toList_ofList, trimChars_dropReturn, List.reverse_reverse, trim]
  · have hchars : (piece ++ "\n" ++ rest).toList = piece.toList ++ '\n' :: rest.toList := by simp
    rw [lines, hchars, linesFrom_append h, List.append_nil, linesFrom, if_pos rfl, List.map_cons,
      lines]

/-- What comes before either line end is a line by itself, up to white space. -/
theorem exists_lines_append_lineEnd {lineEnd : String} (rest : String) (hend : IsLineEnd lineEnd)
    (h : '\n' ∉ piece.toList) :
    ∃ line, trim line = trim piece ∧ lines (piece ++ lineEnd ++ rest) = line :: lines rest := by
  rcases hend with rfl | rfl
  · exact exists_lines_append_feed rest h
  · -- The carriage return counts as white space at the end of the piece.
    have hreturn : '\n' ∉ (piece ++ "\r").toList := by simpa using h
    obtain ⟨line, htrim, hlines⟩ := exists_lines_append_feed rest hreturn
    have hblank : IsBlank "\r" := by simp [IsBlank, isBlank]
    refine ⟨line, ?_, ?_⟩
    · rw [htrim, ← trim_pad piece isBlank_empty hblank, String.empty_append]
    · have htext : piece ++ "\r\n" ++ rest = piece ++ "\r" ++ "\n" ++ rest := by
        rw [← String.toList_inj]
        simp
      rw [htext, hlines]

/-- The lines that count are the pieces that count, whichever way the lines end. A line feed at the
end of the text leaves an empty piece behind it and no line, so an empty line must not count. -/
theorem filter_trim_lines {lineEnd : String} {pieces : List String} {counts : String → Bool}
    (hend : IsLineEnd lineEnd) (hpieces : ∀ piece ∈ pieces, '\n' ∉ piece.toList)
    (hempty : counts "" = false) :
    ((lines (lineEnd.intercalate pieces)).map trim).filter counts =
      (pieces.map trim).filter counts := by
  induction pieces with
  | nil => rw [String.intercalate_nil]; rfl
  | cons piece others ih =>
    obtain ⟨hpiece, hothers⟩ := List.forall_mem_cons.1 hpieces
    cases others with
    | nil =>
      -- The last piece has no line end behind it, and is no line if it is empty.
      rw [String.intercalate_singleton, lines_of_noFeed hpiece]
      split
      · next h =>
        subst h
        have htrim : trim "" = "" := rfl
        rw [List.map_singleton, htrim, List.filter_cons_of_neg (by rw [hempty]; decide)]
        rfl
      · rfl
    | cons second others =>
      obtain ⟨line, htrim, hlines⟩ := exists_lines_append_lineEnd
        (lineEnd.intercalate (second :: others)) hend hpiece
      rw [String.intercalate_cons_cons, hlines, List.map_cons, htrim, List.filter_cons, ih hothers]
      exact List.filter_cons.symm

/-! ### Layout -/

/-- The same lines, laid out in another way: with more white space around them, and with lines in
between that do not count. -/
inductive Reformats (counts : String → Bool) : List String → List String → Prop
  | nil : Reformats counts [] []
  /-- White space is added around a line. -/
  | pad {line before after : String} {lines lines' : List String} :
      IsBlank before → '\n' ∉ before.toList → IsBlank after → '\n' ∉ after.toList →
      Reformats counts lines lines' →
      Reformats counts (line :: lines) ((before ++ line ++ after) :: lines')
  /-- A line that does not count is put between the lines. -/
  | insert {line : String} {lines lines' : List String} :
      '\n' ∉ line.toList → counts (trim line) = false → Reformats counts lines lines' →
      Reformats counts lines (line :: lines')

namespace Reformats

variable {counts : String → Bool} {lines lines' : List String}

/-- A line may be left as it is. -/
theorem keep (line : String) (h : Reformats counts lines lines') :
    Reformats counts (line :: lines) (line :: lines') := by
  have hpad : Reformats counts (line :: lines) (("" ++ line ++ "") :: lines') :=
    .pad isBlank_empty (by simp) isBlank_empty (by simp) h
  simpa using hpad

/-- A change of layout brings no line feed into a line. -/
theorem noFeed (h : Reformats counts lines lines') (hlines : ∀ line ∈ lines, '\n' ∉ line.toList) :
    ∀ line ∈ lines', '\n' ∉ line.toList := by
  induction h with
  | nil => exact hlines
  | pad _ hbefore _ hafter _ ih =>
    obtain ⟨hline, hrest⟩ := List.forall_mem_cons.1 hlines
    refine List.forall_mem_cons.2 ⟨?_, ih hrest⟩
    simp [hbefore, hline, hafter]
  | insert hline _ _ ih => exact List.forall_mem_cons.2 ⟨hline, ih hlines⟩

/-- A change of layout leaves the lines that count as they are. -/
theorem filter_trim (h : Reformats counts lines lines') :
    (lines'.map trim).filter counts = (lines.map trim).filter counts := by
  induction h with
  | nil => rfl
  | pad hbefore _ hafter _ _ ih =>
    rw [List.map_cons, trim_pad _ hbefore hafter, List.filter_cons, ih, List.map_cons,
      List.filter_cons]
  | insert _ hskip _ ih => rw [List.map_cons, List.filter_cons_of_neg (by simp [hskip]), ih]

end Reformats

end DllGraph.Text
