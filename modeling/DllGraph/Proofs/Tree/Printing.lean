import DllGraph.Proofs.Text.Lines
import DllGraph.Proofs.Tree.Lines

/-!
# The Printed Tree

The report of the tree is a text. This module says where the lines of the tree are in it: an empty
line comes before each root, and every line of the tree is a line of the report, which is indented
by its depth and ends in its tags. Nothing else is printed, so what is known of the lines of a tree
is known of what a user reads.

Names may have any characters in them. As long as none of them has a line feed, the lines of the
tree are the pieces that the report is cut into; and whatever the names are, the tag at the end of a
line tells whether the module is expanded there.

## Main definitions

* `Command.EndsIn`, that a text ends in another one;
* `Command.Describes`, what is printed for a line of the tree;
* `Command.Shows`, what is printed for a tree.

## Main results

* `Command.describes_nodeText` — a line ends in the tag of its mark, and in that of no other one;
* `Command.shows_treeReport` — the report shows the tree.
-/

namespace DllGraph.Command

variable {t : FileTree} {fullPaths : Bool} {a : Analysis} {n : Node} {l : TreeLine}
  {text last last' : String} {tags : List String}

/-! ### Tags -/

/-- The tags that a line may have besides that of its mark. -/
def otherTags : List String :=
  ["[Known DLL]", "[invalid]", "[delay-load]", "[missing symbols]"]

/-- What is noted about a line besides its mark. -/
theorem exists_lineTags_eq (n : Node) (l : TreeLine) :
    ∃ tags, lineTags n l = tags ++ markTags l.mark ∧ tags ⊆ otherTags := by
  refine ⟨_, rfl, ?_⟩
  rw [List.append_subset, List.append_subset]
  refine ⟨⟨?_, ?_⟩, ?_⟩
  · split <;> simp [otherTags]
  · split <;> simp [otherTags]
  · cases l.edge with
    | none => simp
    | some d =>
      rw [Option.map_some, Option.getD_some, edgeTags, List.append_subset]
      constructor <;> split <;> simp [otherTags]

/-- The tag of a cycle is on a line that closes one, and on no other. -/
theorem cycle_mem_lineTags_iff : "[cycle]" ∈ lineTags n l ↔ l.mark = .cycle := by
  obtain ⟨tags, htags, hother⟩ := exists_lineTags_eq n l
  have hnot : "[cycle]" ∉ tags := fun h => absurd (hother h) (by decide)
  rw [htags, List.mem_append, or_iff_right hnot]
  cases l.mark <;> simp [markTags]

/-- The tag that refers to a line above is on a line that is marked so, and on no other. -/
theorem seen_mem_lineTags_iff : "[see above]" ∈ lineTags n l ↔ l.mark = .seen := by
  obtain ⟨tags, htags, hother⟩ := exists_lineTags_eq n l
  have hnot : "[see above]" ∉ tags := fun h => absurd (hother h) (by decide)
  rw [htags, List.mem_append, or_iff_right hnot]
  cases l.mark <;> simp [markTags]

/-! ### The end of a line -/

/-- A text ends in another one. -/
def EndsIn (text last : String) : Prop :=
  ∃ front, text = front ++ last

/-- A text that ends in another one has its characters at the end. -/
theorem EndsIn.suffix (h : EndsIn text last) : last.toList <:+ text.toList := by
  obtain ⟨front, rfl⟩ := h
  exact ⟨front.toList, String.toList_append.symm⟩

/-- The ends that a line of the tree may have. A line without tags ends in a blank. -/
def lineEnds : List String :=
  " " :: (otherTags ++ ["[cycle]", "[see above]"]).map (" " ++ ·)

/-- None of the ends is the end of another one, so a line has one of them only. -/
theorem EndsIn.unique (h : EndsIn text last) (h' : EndsIn text last') (hlast : last ∈ lineEnds)
    (hlast' : last' ∈ lineEnds) : last = last' := by
  have hends : ∀ s ∈ lineEnds, ∀ s' ∈ lineEnds, s.toList <:+ s'.toList → s = s' := by decide
  rcases List.suffix_or_suffix_of_suffix h.suffix h'.suffix with hsuffix | hsuffix
  · exact hends last hlast last' hlast' hsuffix
  · exact (hends last' hlast' last hlast hsuffix).symm

/-- The last tag of a line stands at its end, after a blank. -/
theorem endsIn_of_lineTags_eq {tag : String} (h : lineTags n l = tags ++ [tag]) :
    EndsIn (nodeText t fullPaths n l) (" " ++ tag) := by
  rw [nodeText, h]
  cases tags with
  | nil => exact ⟨_, by rw [List.nil_append, String.intercalate_singleton, String.append_assoc]⟩
  | cons first rest =>
    refine ⟨String.ofList (List.replicate l.depth '\t') ++ n.displayName ++ " => " ++
      shownLocation t fullPaths n ++ " " ++ " ".intercalate (first :: rest), ?_⟩
    rw [String.intercalate_append_of_ne_nil (List.cons_ne_nil _ _) (List.cons_ne_nil _ _),
      String.intercalate_singleton]
    simp only [String.append_assoc]

/-- A line without tags ends in the blank before them. -/
theorem endsIn_of_lineTags_eq_nil (h : lineTags n l = []) :
    EndsIn (nodeText t fullPaths n l) " " := by
  rw [nodeText, h, String.intercalate_nil, String.append_empty]
  exact ⟨_, rfl⟩

/-- A line of the tree ends in the tag of its mark, or in something else if the mark has none. -/
theorem exists_endsIn (t : FileTree) (fullPaths : Bool) (n : Node) (l : TreeLine) :
    ∃ last ∈ lineEnds, EndsIn (nodeText t fullPaths n l) last ∧
      (last = " [cycle]" ↔ l.mark = .cycle) ∧ (last = " [see above]" ↔ l.mark = .seen) := by
  obtain ⟨tags, htags, hother⟩ := exists_lineTags_eq n l
  cases hmark : l.mark with
  | cycle | seen =>
    rw [hmark] at htags
    exact ⟨_, by decide, endsIn_of_lineTags_eq htags, by decide, by decide⟩
  | expanded =>
    rw [hmark, markTags, List.append_nil] at htags
    rcases List.eq_nil_or_concat' tags with rfl | ⟨front, tag, rfl⟩
    · exact ⟨" ", by decide, endsIn_of_lineTags_eq_nil htags, by decide, by decide⟩
    · have hends : ∀ tag ∈ otherTags, " " ++ tag ∈ lineEnds ∧
          " " ++ tag ≠ " [cycle]" ∧ " " ++ tag ≠ " [see above]" := by decide
      obtain ⟨hend, hcycle, hseen⟩ :=
        hends tag (hother (List.mem_append_right front (List.mem_singleton_self tag)))
      exact ⟨" " ++ tag, hend, endsIn_of_lineTags_eq htags, iff_of_false hcycle (by decide),
        iff_of_false hseen (by decide)⟩

/-! ### The report -/

/-- A text is what is printed for a line of the tree, up to the line feed. It is indented by the
depth of the line, names the module and where it is, and then has the tags; so the tag of a mark
stands at its end if it has one. -/
structure Describes (t : FileTree) (fullPaths : Bool) (a : Analysis) (l : TreeLine)
    (text : String) : Prop where
  text_eq : ∃ n, a.nodes[l.id]? = some n ∧ text = String.ofList (List.replicate l.depth '\t') ++
    n.displayName ++ " => " ++ shownLocation t fullPaths n ++ " " ++ " ".intercalate (lineTags n l)
  cycle_iff : EndsIn text " [cycle]" ↔ l.mark = .cycle
  seen_iff : EndsIn text " [see above]" ↔ l.mark = .seen

/-- No line feed is in the name of a module or in what is shown for where it is. -/
def HasNoFeed (t : FileTree) (fullPaths : Bool) (a : Analysis) : Prop :=
  ∀ n ∈ a.nodes, '\n' ∉ n.displayName.toList ∧ '\n' ∉ (shownLocation t fullPaths n).toList

/-- A report shows a tree if it has an empty line before each root and a line for each line of the
tree, in order, and nothing else. -/
def Shows (t : FileTree) (fullPaths : Bool) (a : Analysis) (tree : List (List TreeLine))
    (report : String) : Prop :=
  ∃ texts : List (List String), List.Forall₂ (List.Forall₂ (Describes t fullPaths a)) tree texts ∧
    report = String.join (texts.map fun lines => "\n" ++ String.join (lines.map (· ++ "\n"))) ∧
    (HasNoFeed t fullPaths a →
      Text.IsCutInto report ((texts.map fun lines => "" :: lines).flatten ++ [""]))

/-- What is printed for a line describes it, whatever the module is called. -/
theorem describes_nodeText (hn : a.nodes[l.id]? = some n) :
    Describes t fullPaths a l (nodeText t fullPaths n l) := by
  obtain ⟨last, hlast, hend, hcycle, hseen⟩ := exists_endsIn t fullPaths n l
  have hunique : ∀ {last'}, last' ∈ lineEnds →
      (EndsIn (nodeText t fullPaths n l) last' ↔ last = last') := fun hlast' =>
    ⟨fun hend' => hend.unique hend' hlast hlast', fun heq => heq ▸ hend⟩
  exact ⟨⟨n, hn, rfl⟩, (hunique (by decide)).trans hcycle, (hunique (by decide)).trans hseen⟩

/-- Texts with a line feed after each of them are cut into these texts, and an empty one. -/
theorem join_feeds (texts : List String) :
    String.join (texts.map (· ++ "\n")) = "\n".intercalate (texts ++ [""]) := by
  induction texts with
  | nil => rfl
  | cons text rest ih =>
    rw [List.map_cons, String.join_cons, ih, List.cons_append,
      String.intercalate_cons_of_ne_nil (by simp)]

/-- No character but those of the tags and of the blanks between them is in what is noted. -/
theorem not_mem_intercalate {c : Char} (hc : c ≠ ' ') (h : ∀ tag ∈ tags, c ∉ tag.toList) :
    c ∉ (" ".intercalate tags).toList := by
  induction tags with
  | nil => simp
  | cons tag rest ih =>
    obtain ⟨htag, hrest⟩ := List.forall_mem_cons.1 h
    by_cases hne : rest = []
    · rwa [hne, String.intercalate_singleton]
    · rw [String.intercalate_cons_of_ne_nil hne]
      simp only [String.toList_append, List.mem_append, not_or]
      exact ⟨⟨htag, by simpa using hc⟩, ih hrest⟩

/-- The tags of a line have no line feed. -/
theorem noFeed_of_mem_lineTags {tag : String} (h : tag ∈ lineTags n l) : '\n' ∉ tag.toList := by
  obtain ⟨tags, htags, hother⟩ := exists_lineTags_eq n l
  have hothers : ∀ tag ∈ otherTags, '\n' ∉ tag.toList := by decide
  have hmarks : ∀ mark, ∀ tag ∈ markTags mark, '\n' ∉ tag.toList := fun mark => by
    cases mark <;> decide
  rw [htags, List.mem_append] at h
  rcases h with h | h
  · exact hothers tag (hother h)
  · exact hmarks l.mark tag h

/-- What is printed for a line is one line, unless a name has a line feed in it. -/
theorem noFeed_nodeText (h : HasNoFeed t fullPaths a) (hn : a.nodes[l.id]? = some n) :
    '\n' ∉ (nodeText t fullPaths n l).toList := by
  obtain ⟨hname, hlocation⟩ := h n (Array.mem_of_getElem? hn)
  have htags : '\n' ∉ (" ".intercalate (lineTags n l)).toList :=
    not_mem_intercalate (by decide) fun _ => noFeed_of_mem_lineTags
  simp only [nodeText, String.toList_append, List.mem_append, not_or]
  exact ⟨⟨⟨⟨⟨by simp, hname⟩, by decide⟩, hlocation⟩, by decide⟩, htags⟩

/-- Each of some lines of the tree is printed, and nothing in between. -/
theorem exists_texts_of_lines (lines : List TreeLine)
    (h : ∀ l ∈ lines, ∃ n, a.nodes[l.id]? = some n) :
    ∃ texts, List.Forall₂ (Describes t fullPaths a) lines texts ∧
      String.join (lines.map (lineText t fullPaths a)) = String.join (texts.map (· ++ "\n")) ∧
      (HasNoFeed t fullPaths a → ∀ text ∈ texts, '\n' ∉ text.toList) := by
  induction lines with
  | nil => exact ⟨[], .nil, rfl, fun _ => List.forall_mem_nil _⟩
  | cons l rest ih =>
    obtain ⟨⟨n, hn⟩, hrest⟩ := List.forall_mem_cons.1 h
    obtain ⟨texts, hdescribes, hjoin, hfeeds⟩ := ih hrest
    have hline : lineText t fullPaths a l = nodeText t fullPaths n l ++ "\n" := by
      rw [lineText, hn]
      rfl
    refine ⟨nodeText t fullPaths n l :: texts, .cons (describes_nodeText hn) hdescribes, ?_,
      fun hfeed => List.forall_mem_cons.2 ⟨noFeed_nodeText hfeed hn, hfeeds hfeed⟩⟩
    rw [List.map_cons, String.join_cons, hjoin, hline, List.map_cons, String.join_cons]

/-- Texts of lines with an empty line before each text are cut into these lines, the empty ones
among them. -/
theorem join_emptyLines (texts : List (List String)) :
    String.join (texts.map fun lines => "\n" ++ String.join (lines.map (· ++ "\n"))) =
      "\n".intercalate ((texts.map fun lines => "" :: lines).flatten ++ [""]) := by
  rw [← join_feeds]
  induction texts with
  | nil => rfl
  | cons lines rest ih =>
    rw [List.map_cons, String.join_cons, ih, List.map_cons, List.flatten_cons, List.map_append,
      String.join_append, List.map_cons, String.join_cons, String.empty_append]

/-- What is printed for some roots shows their lines. -/
theorem shows_of_forall_mem (tree : List (List TreeLine))
    (h : ∀ lines ∈ tree, ∀ l ∈ lines, ∃ n, a.nodes[l.id]? = some n) :
    Shows t fullPaths a tree (String.join (tree.map fun lines =>
      line "" ++ String.join (lines.map (lineText t fullPaths a)))) := by
  induction tree with
  | nil =>
    refine ⟨[], .nil, rfl, fun _ => ⟨rfl, ?_⟩⟩
    simp
  | cons lines rest ih =>
    obtain ⟨hlines, hrest⟩ := List.forall_mem_cons.1 h
    obtain ⟨texts, hdescribes, hjoin, hfeeds⟩ := exists_texts_of_lines lines hlines
    obtain ⟨others, hothers, hreport, hcut⟩ := ih hrest
    have heq : String.join ((lines :: rest).map fun lines =>
        line "" ++ String.join (lines.map (lineText t fullPaths a))) =
        String.join ((texts :: others).map fun lines =>
          "\n" ++ String.join (lines.map (· ++ "\n"))) := by
      rw [List.map_cons, String.join_cons, hjoin, hreport, List.map_cons, String.join_cons]
      rfl
    refine ⟨texts :: others, .cons hdescribes hothers, heq, fun hfeed => ?_⟩
    refine ⟨heq.trans (join_emptyLines _), ?_⟩
    rw [List.map_cons, List.flatten_cons, List.append_assoc, List.cons_append,
      List.forall_mem_cons, List.forall_mem_append]
    exact ⟨by simp, hfeeds hfeed, (hcut hfeed).noFeed⟩

/-- The report shows the tree. -/
theorem shows_treeReport (t : FileTree) (o : Options) (a : Analysis) :
    Shows t o.fullPaths a (a.tree ⟨o.printSystemDlls, o.maxDepth⟩) (treeReport t o a) := by
  obtain ⟨expanded, h⟩ := a.exists_visits_tree ⟨o.printSystemDlls, o.maxDepth⟩
  refine shows_of_forall_mem _ fun lines hlines l hl => ?_
  have hshows := h.showsAt_of_mem l (List.mem_flatten.2 ⟨lines, hlines, hl⟩)
  obtain ⟨n, hn, -⟩ := Option.any_eq_true _ _ |>.1 hshows
  exact ⟨n, hn⟩

end DllGraph.Command
