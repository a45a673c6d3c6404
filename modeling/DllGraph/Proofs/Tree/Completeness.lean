import DllGraph.Proofs.Scan.Depth
import DllGraph.Proofs.Tree.Printing

/-!
# What the Tree Shows

Which modules have a line in the dependency tree. Without a limit on the depth, these are all that
can be reached from a root through modules that are shown, each expanded once. With a limit, a
module may be missing although it is near enough to a root: a module is expanded on the first line
that has it, and if that is on the last level shown, then its dependencies are cut off there and
are not shown on a later line that has room for them.

## Main definitions

* `Analysis.Reaches`, the paths from a root through modules that are shown;
* `Analysis.Prints`, the modules with a line in the tree;
* `Analysis.Unfolds`, what the lines of a tree without a limit are like.

## Main results

* `Analysis.prints_iff_reaches` — which modules are shown if the depth is limited;
* `Analysis.not_prints_of_deep_first` — these are not all that are near enough to a root;
* `Analysis.unfolds_tree` — a tree without a limit is complete, and repeats nothing.
-/

namespace DllGraph

namespace Analysis

variable {a : Analysis} {v : TreeView} {ancestors expanded expanded' : List Nat}
  {pending : List (Nat × Option Dependency)} {lines : List TreeLine} {through : Nat → Prop}
  {showsSystem : Bool} {id : Nat}

/-! ### Paths of modules that are shown -/

/-- Whether there is a module at a position, and it is not left out as one of the system. -/
def isVisible (a : Analysis) (showsSystem : Bool) (id : Nat) : Bool :=
  a.nodes[id]?.any fun n => showsSystem || !n.isSystem

/-- A path of so many dependencies leads from a root to a module. All modules on the path are
visible, and those before its end are of some kind. -/
inductive Reaches (a : Analysis) (showsSystem : Bool) (through : Nat → Prop) : Nat → Nat → Prop
  | root {id : Nat} : id ∈ a.roots → a.isVisible showsSystem id = true →
      Reaches a showsSystem through 0 id
  | step {k i j : Nat} : Reaches a showsSystem through k i → through i → DependsOn a.nodes i j →
      a.isVisible showsSystem j = true → Reaches a showsSystem through (k + 1) j

/-- A module is shown at a depth if and only if it is visible, and the limit allows for the
depth. -/
theorem showsAt_eq_true_iff {depth : Nat} :
    a.showsAt v id depth = true ↔
      a.isVisible v.showsSystem id = true ∧ v.maxDepth.all (depth < ·) = true := by
  rw [showsAt, isVisible]
  cases a.nodes[id]? with
  | none => simp
  | some n => simp [TreeView.shows]

/-- A module depends on those that are visited below it. -/
theorem dependsOn_iff {i j : Nat} :
    DependsOn a.nodes i j ↔ ∃ n, a.nodes[i]? = some n ∧ ∃ e ∈ n.children, e.1 = j := by
  simp [DependsOn, Node.children]

/-! ### Lines and paths -/

/-- Some line shows the dependencies of a module, and has room for them below it. -/
def ExpandedAbove (v : TreeView) (lines : List TreeLine) (id : Nat) : Prop :=
  ∃ l ∈ lines, l.id = id ∧ l.mark = .expanded ∧ v.maxDepth.all (l.depth + 1 < ·) = true

namespace Visits

/-- A module that is visited has a line if it is shown. -/
theorem exists_mem_of_pending (h : a.Visits v ancestors pending expanded lines expanded')
    {e : Nat × Option Dependency} (he : e ∈ pending)
    (hshows : a.showsAt v e.1 ancestors.length = true) : ∃ l ∈ lines, l.id = e.1 := by
  have hmem := List.mem_filter (p := fun e => a.showsAt v e.1 ancestors.length).2 ⟨he, hshows⟩
  rw [← h.filter_depth_eq] at hmem
  obtain ⟨l, hl, rfl⟩ := List.mem_map.1 hmem
  exact ⟨l, (List.mem_filter.1 hl).1, rfl⟩

/-- A dependency of a module that is expanded has a line if it is visible and there is room. -/
theorem exists_mem_of_dependsOn (h : a.Visits v ancestors pending expanded lines expanded')
    {j : Nat} (habove : ExpandedAbove v lines id) (hedge : DependsOn a.nodes id j)
    (hvisible : a.isVisible v.showsSystem j = true) : ∃ l ∈ lines, l.id = j := by
  obtain ⟨l, hl, rfl, hmark, hroom⟩ := habove
  obtain ⟨front, back, rfl⟩ := List.append_of_mem hl
  obtain ⟨n, hn, e, he, rfl⟩ := dependsOn_iff.1 hedge
  have hmem := List.mem_filter (p := fun e => a.showsAt v e.1 (l.depth + 1)).2
    ⟨he, showsAt_eq_true_iff.2 ⟨hvisible, hroom⟩⟩
  rw [← (h.children_eq rfl hn).1 hmark] at hmem
  obtain ⟨l', hl', rfl⟩ := List.mem_map.1 hmem
  have hback : l' ∈ back := List.takeWhile_subset _ (List.mem_filter.1 hl').1
  exact ⟨l', List.mem_append_right _ (List.mem_cons_of_mem _ hback), rfl⟩

/-- The lines of a module are reached along the lines that they stand below. -/
theorem reaches_of_mem (h : a.Visits v ancestors pending expanded lines expanded')
    (hpending : ∀ e ∈ pending, a.showsAt v e.1 ancestors.length = true →
      a.Reaches v.showsSystem through ancestors.length e.1)
    (hthrough : ∀ id, ExpandedAbove v lines id → through id) :
    ∀ l ∈ lines, a.Reaches v.showsSystem through l.depth l.id := by
  induction h with
  | nil => exact nofun
  | hidden _ _ ih => exact ih (fun e he => hpending e (List.mem_cons_of_mem _ he)) hthrough
  | cut hn hshows _ _ ih =>
    intro l hl
    rcases List.mem_cons.1 hl with rfl | hl
    · exact hpending _ List.mem_cons_self (by rwa [showsAt_of_getElem? hn])
    · refine ih (fun e he => hpending e (List.mem_cons_of_mem _ he)) ?_ l hl
      rintro id ⟨l, hl, habove⟩
      exact hthrough id ⟨l, List.mem_cons_of_mem _ hl, habove⟩
  | @expand ancestors _ _ _ id edge _ below lines n hn hshows _ _ _ ihbelow ih =>
    have hfirst : a.Reaches v.showsSystem through ancestors.length id :=
      hpending _ List.mem_cons_self (by rwa [showsAt_of_getElem? hn])
    intro l hl
    rcases List.mem_cons.1 hl with rfl | hl
    · exact hfirst
    rcases List.mem_append.1 hl with hl | hl
    · refine ihbelow (fun e he hshows => ?_) ?_ l hl
      · rw [List.length_cons, showsAt_eq_true_iff] at hshows
        refine hfirst.step (hthrough id ?_) (dependsOn_iff.2 ⟨n, hn, e, he, rfl⟩) hshows.1
        exact ⟨_, List.mem_cons_self, rfl, rfl, hshows.2⟩
      · rintro id ⟨l, hl, habove⟩
        exact hthrough id ⟨l, List.mem_cons_of_mem _ (List.mem_append_left _ hl), habove⟩
    · refine ih (fun e he => hpending e (List.mem_cons_of_mem _ he)) ?_ l hl
      rintro id ⟨l, hl, habove⟩
      exact hthrough id ⟨l, List.mem_cons_of_mem _ (List.mem_append_right _ hl), habove⟩

end Visits

/-! ### The modules of the tree -/

/-- A module has a line in the tree. -/
def Prints (a : Analysis) (v : TreeView) (id : Nat) : Prop :=
  ∃ l ∈ (a.tree v).flatten, l.id = id

/-- A visible root has a line if there is a level at all. -/
theorem prints_of_mem_roots (hroot : id ∈ a.roots)
    (hvisible : a.isVisible v.showsSystem id = true) (hroom : v.maxDepth.all (0 < ·) = true) :
    a.Prints v id := by
  obtain ⟨expanded, h⟩ := a.exists_visits_tree v
  exact h.exists_mem_of_pending (e := (id, none)) (List.mem_map.2 ⟨id, hroot, rfl⟩)
    (showsAt_eq_true_iff.2 ⟨hvisible, hroom⟩)

/-- A visible dependency of a module that is expanded above the last level has a line. -/
theorem Prints.of_dependsOn {j : Nat} (habove : ExpandedAbove v (a.tree v).flatten id)
    (hedge : DependsOn a.nodes id j) (hvisible : a.isVisible v.showsSystem j = true) :
    a.Prints v j := by
  obtain ⟨expanded, h⟩ := a.exists_visits_tree v
  exact h.exists_mem_of_dependsOn habove hedge hvisible

/-- A module with a line is expanded on one of its lines. -/
theorem Prints.hasExpanded (h : a.Prints v id) : HasExpanded (a.tree v).flatten id := by
  obtain ⟨l, hl, rfl⟩ := h
  obtain ⟨expanded, h⟩ := a.exists_visits_tree v
  exact (h.mem_expanded_iff.1 (h.mem_expanded_of_mem (List.nil_subset _) l hl)).resolve_left
    List.not_mem_nil

/-- Modules of a tree with so many levels are reached through modules that are expanded above the
last level. -/
theorem prints_iff_exists_reaches (a : Analysis) (showsSystem : Bool) (levels id : Nat) :
    a.Prints ⟨showsSystem, some levels⟩ id ↔ ∃ k < levels,
      a.Reaches showsSystem
        (ExpandedAbove ⟨showsSystem, some levels⟩ (a.tree ⟨showsSystem, some levels⟩).flatten)
        k id := by
  constructor
  · rintro ⟨l, hl, rfl⟩
    obtain ⟨expanded, h⟩ := a.exists_visits_tree ⟨showsSystem, some levels⟩
    have hshows := (showsAt_eq_true_iff.1 (h.showsAt_of_mem l hl)).2
    refine ⟨l.depth, by simpa using hshows, h.reaches_of_mem (fun e he hshows => ?_)
      (fun _ habove => habove) l hl⟩
    obtain ⟨root, hroot, rfl⟩ := List.mem_map.1 he
    exact .root hroot (showsAt_eq_true_iff.1 hshows).1
  · rintro ⟨k, hk, hreach⟩
    cases hreach with
    | root hroot hvisible =>
      exact prints_of_mem_roots hroot hvisible (by simpa using Nat.zero_lt_of_lt hk)
    | step _ habove hedge hvisible => exact .of_dependsOn habove hedge hvisible

/-- A module that is near enough to a root is shown, unless a module on the path is expanded on the
last level. -/
theorem prints_or_expanded_last {levels k : Nat} (hk : k < levels)
    (hreach : a.Reaches showsSystem (fun _ => True) k id) :
    a.Prints ⟨showsSystem, some levels⟩ id ∨
      ∃ i j, j < k ∧ a.Reaches showsSystem (fun _ => True) j i ∧
        ∃ l ∈ (a.tree ⟨showsSystem, some levels⟩).flatten,
          l.id = i ∧ l.mark = .expanded ∧ l.depth + 1 = levels := by
  induction hreach with
  | root hroot hvisible =>
    exact .inl (prints_of_mem_roots hroot hvisible (by simpa using hk))
  | @step k i j hreach _ hedge hvisible ih =>
    rcases ih (Nat.lt_of_succ_lt hk) with hprints | ⟨i', k', hlt, hlast⟩
    · obtain ⟨l, hl, hid, hmark⟩ := hprints.hasExpanded
      obtain ⟨expanded, h⟩ := a.exists_visits_tree ⟨showsSystem, some levels⟩
      have hshows := (showsAt_eq_true_iff.1 (h.showsAt_of_mem l hl)).2
      have hlevel : l.depth < levels := by simpa using hshows
      rcases Nat.lt_or_eq_of_le (Nat.succ_le_of_lt hlevel) with habove | hlast
      · have habove : ExpandedAbove ⟨showsSystem, some levels⟩
            (a.tree ⟨showsSystem, some levels⟩).flatten i :=
          ⟨l, hl, hid, hmark, by simpa using habove⟩
        exact .inl (.of_dependsOn habove hedge hvisible)
      · exact .inr ⟨i, k, Nat.lt_succ_self k, hreach, l, hl, hid, hmark, hlast⟩
    · exact .inr ⟨i', k', Nat.lt_succ_of_lt hlt, hlast⟩

/-- If the depth is limited, the modules with a line are those that are reached through modules that
are expanded above the last level. So a module that is near enough to a root has a line, unless the
path to it leads through a module that is expanded on the last level only, where there is no room
for its dependencies. The report has a line of text for each of these lines, and no other. -/
theorem prints_iff_reaches (a : Analysis) (showsSystem : Bool) (levels id : Nat) :
    (a.Prints ⟨showsSystem, some levels⟩ id ↔ ∃ k < levels,
      a.Reaches showsSystem
        (ExpandedAbove ⟨showsSystem, some levels⟩ (a.tree ⟨showsSystem, some levels⟩).flatten)
        k id) ∧
    (∀ k < levels, a.Reaches showsSystem (fun _ => True) k id →
      a.Prints ⟨showsSystem, some levels⟩ id ∨
        ∃ i j, j < k ∧ a.Reaches showsSystem (fun _ => True) j i ∧
          ∃ l ∈ (a.tree ⟨showsSystem, some levels⟩).flatten,
            l.id = i ∧ l.mark = .expanded ∧ l.depth + 1 = levels) ∧
    ∀ (t : FileTree) (o : Command.Options), o.printSystemDlls = showsSystem →
      o.maxDepth = some levels → Command.Shows t o.fullPaths a
        (a.tree ⟨showsSystem, some levels⟩) (Command.treeReport t o a) := by
  refine ⟨a.prints_iff_exists_reaches showsSystem levels id,
    fun _ hk => prints_or_expanded_last hk, fun t o hsystem hdepth => ?_⟩
  rw [← hsystem, ← hdepth]
  exact Command.shows_treeReport t o a

/-- A program that imports from `a.dll` and from `b.dll`. The first of them imports from the second
one, which imports from `c.dll`. -/
def deepFirst : Analysis where
  nodes := #[
    { Node.ofRoot "app.exe" ⟨"app.exe"⟩ with
      dependencies := [⟨"a.dll", 1, false, []⟩, ⟨"b.dll", 2, false, []⟩] },
    { Node.unread "a.dll" (some ⟨"a.dll"⟩) (some .executableDir) 1 false with
      dependencies := [⟨"b.dll", 2, false, []⟩] },
    { Node.unread "b.dll" (some ⟨"b.dll"⟩) (some .executableDir) 1 false with
      dependencies := [⟨"c.dll", 3, false, []⟩] },
    .unread "c.dll" (some ⟨"c.dll"⟩) (some .executableDir) 2 false]
  index := [("app.exe", 0), ("a.dll", 1), ("b.dll", 2), ("c.dll", 3)]
  roots := [0]

/-- Two dependencies lead from the program to `c.dll`. -/
theorem reaches_deepFirst : deepFirst.Reaches false (fun _ => True) 2 3 := by
  have hroot : deepFirst.Reaches false (fun _ => True) 0 0 := .root (by decide) (by decide)
  have hfirst : deepFirst.Reaches false (fun _ => True) 1 2 :=
    hroot.step trivial ⟨_, rfl, ⟨"b.dll", 2, false, []⟩, by decide, rfl⟩ (by decide)
  exact hfirst.step trivial ⟨_, rfl, ⟨"c.dll", 3, false, []⟩, by decide, rfl⟩ (by decide)

/-- But three levels of the tree do not show it: `b.dll` is expanded below `a.dll`, on the third
level. -/
theorem not_prints_deepFirst : ¬deepFirst.Prints ⟨false, some 3⟩ 3 := by
  rw [Prints]
  decide +kernel

/-- So not every module that is near enough to a root has a line. -/
theorem not_prints_of_deep_first :
    ¬∀ (a : Analysis) (showsSystem : Bool) (levels k id : Nat), k < levels →
      a.Reaches showsSystem (fun _ => True) k id → a.Prints ⟨showsSystem, some levels⟩ id :=
  fun hall => not_prints_deepFirst (hall deepFirst false 3 2 3 (by decide) reaches_deepFirst)

/-- A module on the way to `c.dll` is expanded on the last level. -/
theorem prints_iff_reaches_deepFirst :
    ∃ i j, j < 2 ∧ deepFirst.Reaches false (fun _ => True) j i ∧
      ∃ l ∈ (deepFirst.tree ⟨false, some 3⟩).flatten,
        l.id = i ∧ l.mark = .expanded ∧ l.depth + 1 = 3 :=
  ((prints_iff_reaches deepFirst false 3 3).2.1 2 (by decide) reaches_deepFirst).resolve_left
    not_prints_deepFirst

/-- The second line of `b.dll` refers to the first one, below which nothing follows. -/
example :
    Command.treeReport ⟨[], []⟩ { Command.Options.initial with maxDepth := some 3 } deepFirst =
      "\napp.exe =>  \n\ta.dll =>  \n\t\tb.dll =>  \n\tb.dll =>  [see above]\n" := by
  decide +kernel

/-! ### A tree without a limit -/

/-- What a line is like in its place among the lines of a tree. -/
structure FitsInto (a : Analysis) (showsSystem : Bool) (n : Node) (front : List TreeLine)
    (l : TreeLine) (back : List TreeLine) : Prop where
  /-- Below a line that is expanded are the dependencies that are visible, in order. -/
  children : l.mark = .expanded → (l.children back).map (fun l' => (l'.id, l'.edge)) =
    n.children.filter fun e => a.isVisible showsSystem e.1
  /-- Below any other line there is nothing. -/
  below : l.mark ≠ .expanded → l.below back = []
  /-- It is tagged if its module is among its ancestors. -/
  cycle_iff : "[cycle]" ∈ Command.lineTags n l ↔ l.ClosesCycle front
  /-- It is tagged if it is not expanded for another reason. -/
  seen_iff : "[see above]" ∈ Command.lineTags n l ↔ l.mark ≠ .expanded ∧ ¬l.ClosesCycle front
  /-- Then the line under which the module is expanded is one of those before. -/
  above : "[see above]" ∈ Command.lineTags n l → HasExpanded front l.id

/-- The lines of a tree without a limit on its depth. -/
structure Unfolds (a : Analysis) (showsSystem : Bool) (lines : List TreeLine) : Prop where
  /-- The visits of the roots come to an end, and the lines are what they print. -/
  visits : ∀ printed, (∃ expanded, a.Visits ⟨showsSystem, none⟩ []
    (a.roots.map fun root => (root, none)) [] printed expanded) ↔ printed = lines
  depth_le : ∀ l ∈ lines, l.depth ≤ a.nodes.size
  /-- Every module on a path of visible modules has a line. -/
  complete : ∀ k id, a.Reaches showsSystem (fun _ => True) k id → ∃ l ∈ lines, l.id = id
  /-- A module that has dependencies is expanded on one of its lines. -/
  once : ∀ l ∈ lines, ∀ n, a.nodes[l.id]? = some n → n.dependencies ≠ [] →
    lines.countP (fun l' => l'.id = l.id ∧ l'.mark = .expanded) = 1
  fits : ∀ front l back, lines = front ++ l :: back →
    ∃ n, a.nodes[l.id]? = some n ∧ a.FitsInto showsSystem n front l back

/-- There is at most one element of a kind if none comes after another one. -/
theorem countP_le_one {α : Type} {p : α → Bool} {l : List α}
    (h : ∀ front x back, l = front ++ x :: back → p x = true → ∀ y ∈ front, ¬p y = true) :
    l.countP p ≤ 1 := by
  induction l with
  | nil => exact Nat.zero_le _
  | cons x l ih =>
    rw [List.countP_cons]
    split
    · next hx =>
      have hnone : l.countP p = 0 := by
        refine List.countP_eq_zero.2 fun y hy hpy => ?_
        obtain ⟨front, back, rfl⟩ := List.append_of_mem hy
        exact h (x :: front) y back rfl hpy x List.mem_cons_self hx
      rw [hnone]
    · exact ih fun front y back hl hy z hz =>
        h (x :: front) y back (by rw [hl]; rfl) hy z (List.mem_cons_of_mem _ hz)

/-- A module that is reached on a path of visible modules has a line. -/
theorem prints_of_reaches {k : Nat} (hreach : a.Reaches showsSystem (fun _ => True) k id) :
    a.Prints ⟨showsSystem, none⟩ id := by
  induction hreach with
  | root hroot hvisible => exact prints_of_mem_roots hroot hvisible rfl
  | step _ _ hedge hvisible ih =>
    obtain ⟨l, hl, hid, hmark⟩ := ih.hasExpanded
    exact .of_dependsOn ⟨l, hl, hid, hmark, rfl⟩ hedge hvisible

namespace Visits

variable {front back : List TreeLine} {l : TreeLine} {n : Node}

/-- A module that has dependencies has not been expanded before a line that is expanded. -/
theorem not_hasExpanded (h : a.Visits v [] pending [] lines expanded)
    (hl : lines = front ++ l :: back) (hn : a.nodes[l.id]? = some n) (hne : n.dependencies ≠ [])
    (hmark : l.mark = .expanded) : ¬HasExpanded front l.id := by
  obtain ⟨m, hm, htells⟩ := h.tells hl
  obtain rfl : m = n := Option.some.inj (hm.symm.trans hn)
  intro hexpanded
  have hcycle : ¬(l.id ∈ [] ∨ l.ClosesCycle front) := by
    rw [← htells.cycle_iff, hmark]
    exact TreeMark.noConfusion
  have hseen : l.mark = .seen := htells.seen_iff.2 ⟨hcycle, hne, .inr hexpanded⟩
  rw [hmark] at hseen
  cases hseen

/-- A module that has dependencies is expanded once. -/
theorem countP_expanded (h : a.Visits v [] pending [] lines expanded) (hl : l ∈ lines)
    (hn : a.nodes[l.id]? = some n) (hne : n.dependencies ≠ []) :
    lines.countP (fun l' => l'.id = l.id ∧ l'.mark = .expanded) = 1 := by
  refine Nat.le_antisymm (countP_le_one fun front l' back hsplit hl' y hy hpy => ?_) ?_
  · rw [decide_eq_true_eq] at hl' hpy
    obtain ⟨hid, hmark⟩ := hl'
    rw [← hid] at hn hpy
    exact h.not_hasExpanded hsplit hn hne hmark ⟨y, hy, hpy⟩
  · have hexpanded : l.id ∈ expanded := h.mem_expanded_of_mem (List.nil_subset _) l hl
    obtain ⟨l', hl', hp⟩ := (h.mem_expanded_iff.1 hexpanded).resolve_left List.not_mem_nil
    exact List.countP_pos_iff.2 ⟨l', hl', by simpa using hp⟩

/-- Every line fits into its place. -/
theorem fitsInto (h : a.Visits ⟨showsSystem, none⟩ [] pending [] lines expanded)
    (hl : lines = front ++ l :: back) :
    ∃ n, a.nodes[l.id]? = some n ∧ a.FitsInto showsSystem n front l back := by
  obtain ⟨n, hn, htells⟩ := h.tells hl
  obtain ⟨hchildren, hbelow⟩ := h.children_eq hl hn
  have hcycle : l.mark = .cycle ↔ l.ClosesCycle front := by simpa using htells.cycle_iff
  have hshows : ∀ e : Nat × Option Dependency,
      a.showsAt ⟨showsSystem, none⟩ e.1 (l.depth + 1) = a.isVisible showsSystem e.1 := by
    intro e
    rw [Bool.eq_iff_iff, showsAt_eq_true_iff]
    simp
  refine ⟨n, hn, ?_, hbelow, Command.cycle_mem_lineTags_iff.trans hcycle, ?_, fun htag => ?_⟩
  · simpa only [hshows] using hchildren
  · rw [Command.seen_mem_lineTags_iff, ← hcycle]
    cases l.mark <;> simp
  · have hseen := htells.seen_iff.1 (Command.seen_mem_lineTags_iff.1 htag)
    simpa using hseen.2.2

end Visits

/-- Without a limit on its depth, the visits of a tree come to an end, whatever cycles there are.
Every module on a path of visible modules has a line, no line is deeper than there are modules, and
a module that has dependencies is expanded on one line. Each other line of the module is tagged as
a cycle if the module is among its own ancestors, and otherwise refers to a line above. The report
has a line of text for each of these lines, and no other. -/
theorem unfolds_tree (a : Analysis) (showsSystem : Bool) :
    a.Unfolds showsSystem (a.tree ⟨showsSystem, none⟩).flatten ∧
    ∀ (t : FileTree) (o : Command.Options), o.printSystemDlls = showsSystem → o.maxDepth = none →
      Command.Shows t o.fullPaths a (a.tree ⟨showsSystem, none⟩) (Command.treeReport t o a) := by
  obtain ⟨expanded, h⟩ := a.exists_visits_tree ⟨showsSystem, none⟩
  constructor
  · exact {
      visits := fun printed =>
        ⟨fun ⟨_, h'⟩ => (h'.unique h).1, fun heq => ⟨expanded, heq ▸ h⟩⟩
      depth_le := h.depth_le_size .nil
      complete := fun _ _ => prints_of_reaches
      once := fun _ hl _ => h.countP_expanded hl
      fits := fun _ _ _ => h.fitsInto }
  · intro t o hsystem hdepth
    rw [← hsystem, ← hdepth]
    exact Command.shows_treeReport t o a

end Analysis

end DllGraph
