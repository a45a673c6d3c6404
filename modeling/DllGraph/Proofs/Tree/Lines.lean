import DllGraph.Command.Report
import Mathlib.Data.List.Basic
import Mathlib.Data.List.Perm.Subperm
import Mathlib.Data.List.TakeWhile

/-!
# The Lines of the Tree

What the lines of the dependency tree say about each other. A line stands below another one if it
follows it and everything in between is deeper, so the nesting of a tree can be read off the depths
of its lines alone. This module relates that nesting to the visits that have printed the lines.

`Analysis.Visits` are these visits without any bound on the number of levels. Its ancestors differ
from each other, so there are never more of them than modules, and the bound that `Analysis.tree`
puts on its recursion is never met (`Analysis.exists_visits_tree`).

## Main definitions

* `Analysis.Visits`, the visits of some modules below the same ancestors;
* `TreeLine.Encloses`, the lines that a line stands below, and `TreeLine.ClosesCycle`, when one of
  them has the same module;
* `TreeLine.below` and `TreeLine.children`, the lines below a line.

## Main results

* `Analysis.exists_visits_tree` — the visits of the roots come to an end, and print the tree;
* `Analysis.Visits.tells` — what the mark of a line tells about the lines before it;
* `Analysis.Visits.children_eq` — the lines below a line are those of the dependencies shown.
-/

namespace DllGraph

/-- The modules that are visited below a module, each with the dependency that leads to it. -/
def Node.children (n : Node) : List (Nat × Option Dependency) :=
  n.dependencies.map fun d => (d.target, some d)

namespace Analysis

/-- Whether there is a module at a position, and it is shown at a depth. -/
def showsAt (a : Analysis) (v : TreeView) (id depth : Nat) : Bool :=
  a.nodes[id]?.any (v.shows · depth)

/-- Some modules are visited one after the other below the same ancestors. This prints some lines,
and takes the modules that have been expanded before the visits to those that have been expanded
after them. -/
inductive Visits (a : Analysis) (v : TreeView) : List Nat → List (Nat × Option Dependency) →
    List Nat → List TreeLine → List Nat → Prop
  | nil {ancestors expanded : List Nat} : Visits a v ancestors [] expanded [] expanded
  /-- A module that is not shown is left out, with all that it depends on. -/
  | hidden {ancestors expanded expanded' : List Nat} {id : Nat} {edge : Option Dependency}
      {rest : List (Nat × Option Dependency)} {lines : List TreeLine} :
      a.showsAt v id ancestors.length = false →
      Visits a v ancestors rest expanded lines expanded' →
      Visits a v ancestors ((id, edge) :: rest) expanded lines expanded'
  /-- A module that is not expanded has a line, and nothing below it. -/
  | cut {ancestors expanded expanded' : List Nat} {id : Nat} {edge : Option Dependency}
      {rest : List (Nat × Option Dependency)} {lines : List TreeLine} {n : Node} :
      a.nodes[id]? = some n → v.shows n ancestors.length = true →
      TreeMark.of n id ancestors expanded ≠ .expanded →
      Visits a v ancestors rest expanded lines expanded' →
      Visits a v ancestors ((id, edge) :: rest) expanded
        (⟨ancestors.length, id, edge, TreeMark.of n id ancestors expanded⟩ :: lines) expanded'
  /-- A module that is expanded has a line, and below it those of its dependencies. -/
  | expand {ancestors expanded between expanded' : List Nat} {id : Nat} {edge : Option Dependency}
      {rest : List (Nat × Option Dependency)} {below lines : List TreeLine} {n : Node} :
      a.nodes[id]? = some n → v.shows n ancestors.length = true →
      TreeMark.of n id ancestors expanded = .expanded →
      Visits a v (id :: ancestors) n.children (id :: expanded) below between →
      Visits a v ancestors rest between lines expanded' →
      Visits a v ancestors ((id, edge) :: rest) expanded
        (⟨ancestors.length, id, edge, .expanded⟩ :: (below ++ lines)) expanded'

end Analysis

variable {a : Analysis} {v : TreeView} {ancestors expanded between expanded' : List Nat}
  {pending : List (Nat × Option Dependency)} {lines front back : List TreeLine} {l : TreeLine}

/-! ### The end of the recursion -/

namespace Analysis

/-- A module that is there is shown where the view shows it. -/
theorem showsAt_of_getElem? {id depth : Nat} {n : Node} (hn : a.nodes[id]? = some n) :
    a.showsAt v id depth = v.shows n depth := by
  rw [showsAt, hn, Option.any_some]

/-- Visits below the same ancestors can be made one after the other. -/
theorem Visits.append {pending' : List (Nat × Option Dependency)} {lines' : List TreeLine}
    (h : a.Visits v ancestors pending expanded lines between)
    (h' : a.Visits v ancestors pending' between lines' expanded') :
    a.Visits v ancestors (pending ++ pending') expanded (lines ++ lines') expanded' := by
  induction h with
  | nil => exact h'
  | hidden hshows _ ih => exact .hidden hshows (ih h')
  | cut hn hshows hmark _ ih => exact .cut hn hshows hmark (ih h')
  | expand hn hshows hmark hbelow _ _ ih =>
    rw [List.cons_append, List.cons_append, List.append_assoc]
    exact .expand hn hshows hmark hbelow (ih h')

/-- There is one course of the visits only. -/
theorem Visits.unique {lines' : List TreeLine} {expanded'' : List Nat}
    (h : a.Visits v ancestors pending expanded lines expanded')
    (h' : a.Visits v ancestors pending expanded lines' expanded'') :
    lines = lines' ∧ expanded' = expanded'' := by
  induction h generalizing lines' expanded'' with
  | nil =>
    cases h'
    exact ⟨rfl, rfl⟩
  | hidden hshows _ ih =>
    cases h' with
    | hidden _ h' => exact ih h'
    | cut hn hshows' | expand hn hshows' =>
      rw [showsAt_of_getElem? hn, hshows'] at hshows
      cases hshows
  | cut hn hshows hmark _ ih =>
    cases h' with
    | hidden hhidden =>
      rw [showsAt_of_getElem? hn, hshows] at hhidden
      cases hhidden
    | cut hn' _ _ h' =>
      obtain rfl := Option.some.inj (hn.symm.trans hn')
      obtain ⟨rfl, rfl⟩ := ih h'
      exact ⟨rfl, rfl⟩
    | expand hn' _ hmark' =>
      obtain rfl := Option.some.inj (hn.symm.trans hn')
      exact absurd hmark' hmark
  | expand hn hshows hmark _ _ ihbelow ih =>
    cases h' with
    | hidden hhidden =>
      rw [showsAt_of_getElem? hn, hshows] at hhidden
      cases hhidden
    | cut hn' _ hmark' =>
      obtain rfl := Option.some.inj (hn.symm.trans hn')
      exact absurd hmark hmark'
    | expand hn' _ _ hbelow h' =>
      obtain rfl := Option.some.inj (hn.symm.trans hn')
      obtain ⟨rfl, rfl⟩ := ihbelow hbelow
      obtain ⟨rfl, rfl⟩ := ih h'
      exact ⟨rfl, rfl⟩

/-- Ancestors are modules of the graph, and differ from each other. -/
structure AreAncestors (a : Analysis) (ancestors : List Nat) : Prop where
  nodup : ancestors.Nodup
  lt_size : ∀ id ∈ ancestors, id < a.nodes.size

/-- A root has no ancestors. -/
theorem AreAncestors.nil : a.AreAncestors [] where
  nodup := List.nodup_nil
  lt_size := nofun

/-- There are at most as many ancestors as modules. -/
theorem AreAncestors.length_le (h : a.AreAncestors ancestors) :
    ancestors.length ≤ a.nodes.size := by
  have hsubset : ancestors ⊆ List.range a.nodes.size := fun id hid =>
    List.mem_range.2 (h.lt_size id hid)
  simpa using (List.subperm_of_subset h.nodup hsubset).length_le

/-- A module that is expanded is an ancestor of what is below it, and of nothing above. -/
theorem AreAncestors.cons (h : a.AreAncestors ancestors) {id : Nat} {n : Node}
    (hn : a.nodes[id]? = some n) (hmark : TreeMark.of n id ancestors expanded = .expanded) :
    a.AreAncestors (id :: ancestors) where
  nodup := by
    refine List.nodup_cons.2 ⟨fun hid => ?_, h.nodup⟩
    rw [TreeMark.of, if_pos hid] at hmark
    cases hmark
  lt_size := by
    intro i hi
    rcases List.mem_cons.1 hi with rfl | hi
    · exact (Array.getElem?_eq_some_iff.1 hn).1
    · exact h.lt_size i hi

/-- If each of some visits comes to an end, so do all of them in turn. -/
theorem visits_visitEach {visit : Nat → Option Dependency → List Nat → List TreeLine × List Nat}
    (hvisit : ∀ id edge expanded, a.Visits v ancestors [(id, edge)] expanded
      (visit id edge expanded).1 (visit id edge expanded).2)
    (dependencies : List Dependency) (expanded : List Nat) :
    a.Visits v ancestors (dependencies.map fun d => (d.target, some d)) expanded
      (visitEach visit dependencies expanded).1 (visitEach visit dependencies expanded).2 := by
  induction dependencies generalizing expanded with
  | nil => exact .nil
  | cons d rest ih => exact (hvisit d.target (some d) expanded).append (ih _)

/-- A bound that allows for as many levels as there are modules, and one more, is not met. -/
theorem visits_visit (fuel : Nat) (h : a.AreAncestors ancestors)
    (hfuel : a.nodes.size < fuel + ancestors.length) (id : Nat) (edge : Option Dependency)
    (expanded : List Nat) :
    a.Visits v ancestors [(id, edge)] expanded (a.visit v fuel ancestors id edge expanded).1
      (a.visit v fuel ancestors id edge expanded).2 := by
  induction fuel generalizing ancestors id edge expanded with
  | zero => exact absurd h.length_le (by omega)
  | succ fuel ih =>
    rw [visit]
    split
    · next hn => exact .hidden (by rw [showsAt, hn, Option.any_none]) .nil
    · next n hn =>
      split
      · next hshows =>
        dsimp only
        split
        · next hmark =>
          have hmore : a.nodes.size < fuel + (id :: ancestors).length := by
            rw [List.length_cons]
            omega
          have hbelow := visits_visitEach (ih (h.cons hn hmark) hmore) n.dependencies
            (id :: expanded)
          have hvisits : a.Visits v ancestors [(id, edge)] expanded (_ :: (_ ++ [])) _ :=
            .expand hn hshows hmark hbelow .nil
          simpa [hmark] using hvisits
        · next hmark => exact .cut hn hshows hmark .nil
      · next hshows =>
        exact .hidden (by rw [showsAt_of_getElem? hn]; exact Bool.eq_false_iff.2 hshows) .nil

/-- The visits of some roots come to an end, whatever has been expanded before. -/
theorem exists_visits_treeFrom (roots expanded : List Nat) :
    ∃ expanded', a.Visits v [] (roots.map fun root => (root, none)) expanded
      (a.treeFrom v roots expanded).flatten expanded' := by
  induction roots generalizing expanded with
  | nil => exact ⟨expanded, .nil⟩
  | cons root rest ih =>
    have hroot : a.Visits v [] [(root, none)] expanded _ _ :=
      visits_visit (a.nodes.size + 1) .nil (by simp) root none expanded
    obtain ⟨expanded', hrest⟩ := ih (a.visit v (a.nodes.size + 1) [] root none expanded).2
    exact ⟨expanded', hroot.append hrest⟩

/-- The visits of the roots come to an end, and print the tree. -/
theorem exists_visits_tree (a : Analysis) (v : TreeView) :
    ∃ expanded, a.Visits v [] (a.roots.map fun root => (root, none)) [] (a.tree v).flatten
      expanded :=
  exists_visits_treeFrom a.roots []

end Analysis

/-! ### Depths -/

namespace Analysis.Visits

/-- The first line is one level below the ancestors. -/
theorem depth_of_head? (h : a.Visits v ancestors pending expanded lines expanded')
    (hl : lines.head? = some l) : l.depth = ancestors.length := by
  induction h with
  | nil => cases hl
  | hidden _ _ ih => exact ih hl
  | cut | expand =>
    cases hl
    rfl

/-- No line is above the visits that print it. -/
theorem length_le_depth (h : a.Visits v ancestors pending expanded lines expanded') :
    ∀ l ∈ lines, ancestors.length ≤ l.depth := by
  induction h with
  | nil => exact nofun
  | hidden _ _ ih => exact ih
  | cut _ _ _ _ ih =>
    intro l hl
    rcases List.mem_cons.1 hl with rfl | hl
    · exact Nat.le_refl _
    · exact ih l hl
  | expand _ _ _ _ _ ihbelow ih =>
    intro l hl
    rcases List.mem_cons.1 hl with rfl | hl
    · exact Nat.le_refl _
    · rcases List.mem_append.1 hl with hl | hl
      · exact Nat.le_of_succ_le (ihbelow l hl)
      · exact ih l hl

/-- No line is deeper than there are modules. -/
theorem depth_le_size (h : a.Visits v ancestors pending expanded lines expanded')
    (hancestors : a.AreAncestors ancestors) : ∀ l ∈ lines, l.depth ≤ a.nodes.size := by
  induction h with
  | nil => exact nofun
  | hidden _ _ ih => exact ih hancestors
  | cut _ _ _ _ ih =>
    intro l hl
    rcases List.mem_cons.1 hl with rfl | hl
    · exact hancestors.length_le
    · exact ih hancestors l hl
  | expand hn _ hmark _ _ ihbelow ih =>
    intro l hl
    rcases List.mem_cons.1 hl with rfl | hl
    · exact hancestors.length_le
    · rcases List.mem_append.1 hl with hl | hl
      · exact ihbelow (hancestors.cons hn hmark) l hl
      · exact ih hancestors l hl

/-- A line is only there for a module that is shown at its depth. -/
theorem showsAt_of_mem (h : a.Visits v ancestors pending expanded lines expanded') :
    ∀ l ∈ lines, a.showsAt v l.id l.depth = true := by
  induction h with
  | nil => exact nofun
  | hidden _ _ ih => exact ih
  | cut hn hshows _ _ ih =>
    intro l hl
    rcases List.mem_cons.1 hl with rfl | hl
    · rwa [showsAt_of_getElem? hn]
    · exact ih l hl
  | expand hn hshows _ _ _ ihbelow ih =>
    intro l hl
    rcases List.mem_cons.1 hl with rfl | hl
    · rwa [showsAt_of_getElem? hn]
    · rcases List.mem_append.1 hl with hl | hl
      · exact ihbelow l hl
      · exact ih l hl

end Analysis.Visits

/-! ### What has been expanded -/

/-- Some line shows the dependencies of a module. -/
def HasExpanded (lines : List TreeLine) (id : Nat) : Prop :=
  ∃ l ∈ lines, l.id = id ∧ l.mark = .expanded

/-- No lines show no dependencies. -/
theorem not_hasExpanded_nil {id : Nat} : ¬HasExpanded [] id := by
  rintro ⟨l, hl, -⟩
  cases hl

/-- A line more shows the dependencies of its module if it is expanded. -/
theorem hasExpanded_cons_iff {id : Nat} :
    HasExpanded (l :: lines) id ↔ (l.id = id ∧ l.mark = .expanded) ∨ HasExpanded lines id :=
  List.exists_mem_cons_iff _ _ _

/-- Lines show what the first of them show and what the others show. -/
theorem hasExpanded_append_iff {id : Nat} :
    HasExpanded (front ++ back) id ↔ HasExpanded front id ∨ HasExpanded back id := by
  simp only [HasExpanded, List.mem_append, or_and_right, exists_or]

namespace Analysis.Visits

/-- What is expanded has a line that says so. -/
theorem mem_expanded_iff (h : a.Visits v ancestors pending expanded lines expanded') {id : Nat} :
    id ∈ expanded' ↔ id ∈ expanded ∨ HasExpanded lines id := by
  induction h with
  | nil => simp [not_hasExpanded_nil]
  | hidden _ _ ih => exact ih
  | cut _ _ hmark _ ih => simp [ih, hasExpanded_cons_iff, hmark]
  | expand _ _ _ _ _ ihbelow ih =>
    rw [ih, ihbelow, hasExpanded_cons_iff, hasExpanded_append_iff, List.mem_cons]
    simp only [and_true, @eq_comm _ id, or_assoc, or_left_comm]

/-- What has been expanded stays so. -/
theorem expanded_subset (h : a.Visits v ancestors pending expanded lines expanded') :
    expanded ⊆ expanded' :=
  fun _ hid => h.mem_expanded_iff.2 (.inl hid)

/-- Every module with a line has been expanded by the end, if its ancestors had been before. -/
theorem mem_expanded_of_mem (h : a.Visits v ancestors pending expanded lines expanded')
    (hsubset : ancestors ⊆ expanded) : ∀ l ∈ lines, l.id ∈ expanded' := by
  induction h with
  | nil => exact nofun
  | hidden _ _ ih => exact ih hsubset
  | cut _ _ hmark h ih =>
    intro l hl
    rcases List.mem_cons.1 hl with rfl | hl
    · refine h.expanded_subset ?_
      rw [TreeMark.of] at hmark
      split at hmark
      · next hid => exact hsubset hid
      · split at hmark
        · next hseen => exact hseen.2
        · exact absurd rfl hmark
    · exact ih hsubset l hl
  | @expand _ _ _ _ id _ _ _ _ _ _ _ _ hbelow h ihbelow ih =>
    intro l hl
    rcases List.mem_cons.1 hl with rfl | hl
    · exact h.expanded_subset (hbelow.expanded_subset List.mem_cons_self)
    · rcases List.mem_append.1 hl with hl | hl
      · exact h.expanded_subset (ihbelow (List.cons_subset_cons _ hsubset) l hl)
      · refine ih (fun i hi => hbelow.expanded_subset ?_) l hl
        exact List.mem_cons_of_mem id (hsubset hi)

end Analysis.Visits

/-! ### Nesting -/

/-- A line at some depth stands below another one, with some lines before it: these end in the
other line and in lines that are deeper than the other one, as is the line itself. -/
def TreeLine.Encloses (outer : TreeLine) (front : List TreeLine) (depth : Nat) : Prop :=
  ∃ before between, front = before ++ outer :: between ∧ outer.depth < depth ∧
    ∀ l ∈ between, outer.depth < l.depth

/-- The module of a line is among the ancestors of the line, with some lines before it. -/
def TreeLine.ClosesCycle (l : TreeLine) (front : List TreeLine) : Prop :=
  ∃ outer : TreeLine, outer.Encloses front l.depth ∧ outer.id = l.id

/-- The lines below a line, among those that follow it. -/
def TreeLine.below (l : TreeLine) (back : List TreeLine) : List TreeLine :=
  back.takeWhile fun l' => l.depth < l'.depth

/-- The lines one level below a line, among those that follow it. -/
def TreeLine.children (l : TreeLine) (back : List TreeLine) : List TreeLine :=
  (l.below back).filter fun l' => l'.depth = l.depth + 1

namespace TreeLine

variable {first : TreeLine}

/-- A first line closes no cycle. -/
theorem not_closesCycle_nil : ¬l.ClosesCycle [] := by
  rintro ⟨outer, ⟨before, between, h, -⟩, -⟩
  exact absurd h (by simp)

/-- Lines do not enclose anything from a line on that is no deeper than they are. -/
theorem closesCycle_append_iff (hfirst : (back ++ [l]).head? = some first)
    (hdepth : ∀ l' ∈ front, first.depth ≤ l'.depth) :
    l.ClosesCycle (front ++ back) ↔ l.ClosesCycle back := by
  constructor
  · rintro ⟨outer, ⟨before, between, hsplit, hlt, hbetween⟩, hid⟩
    refine ⟨outer, ?_, hid⟩
    rcases List.append_eq_append_iff.1 hsplit with ⟨rest, rfl, hback⟩ | ⟨rest, hfront, hrest⟩
    · exact ⟨rest, between, hback, hlt, hbetween⟩
    · cases rest with
      | nil => exact ⟨[], between, hrest.symm, hlt, hbetween⟩
      | cons outer' rest =>
        rw [List.cons_append, List.cons.injEq] at hrest
        obtain ⟨rfl, rfl⟩ := hrest
        have hle : first.depth ≤ outer.depth := hdepth outer (by rw [hfront]; simp)
        -- The first of the other lines, or the line itself, would have to be deeper.
        cases back with
        | nil =>
          cases hfirst
          exact absurd hlt (Nat.not_lt_of_le hle)
        | cons first' back =>
          cases hfirst
          exact absurd (hbetween first (by simp)) (Nat.not_lt_of_le hle)
  · rintro ⟨outer, ⟨before, between, rfl, h⟩, hid⟩
    exact ⟨outer, ⟨front ++ before, between, by rw [List.append_assoc], h⟩, hid⟩

/-- A line encloses what is deeper, up to the first line that is not. -/
theorem closesCycle_cons_iff (hlt : first.depth < l.depth)
    (hdepth : ∀ l' ∈ front, first.depth < l'.depth) :
    l.ClosesCycle (first :: front) ↔ first.id = l.id ∨ l.ClosesCycle front := by
  constructor
  · rintro ⟨outer, ⟨before, between, hsplit, hlt, hbetween⟩, hid⟩
    cases before with
    | nil =>
      cases hsplit
      exact .inl hid
    | cons first' before =>
      rw [List.cons_append, List.cons.injEq] at hsplit
      exact .inr ⟨outer, ⟨before, between, hsplit.2, hlt, hbetween⟩, hid⟩
  · rintro (hid | ⟨outer, ⟨before, between, rfl, h⟩, hid⟩)
    · exact ⟨first, ⟨[], front, rfl, hlt, hdepth⟩, hid⟩
    · exact ⟨outer, ⟨first :: before, between, rfl, h⟩, hid⟩

/-- Nothing from a line on that is no deeper is below a line. -/
theorem below_append (front : List TreeLine)
    (hfirst : ∀ first ∈ back.head?, first.depth ≤ l.depth) :
    l.below (front ++ back) = l.below front := by
  have hback : back.takeWhile (fun l' => decide (l.depth < l'.depth)) = [] := by
    cases back with
    | nil => rfl
    | cons first back =>
      exact List.takeWhile_cons_of_neg (by simpa using hfirst first rfl)
  rw [below, below, List.takeWhile_append]
  split
  · next hall =>
    rw [hback, List.append_nil]
    exact ((List.takeWhile_prefix _).eq_of_length hall).symm
  · rfl

/-- Lines that are all deeper are all below. -/
theorem below_eq_self (hdepth : ∀ l' ∈ front, l.depth < l'.depth) : l.below front = front :=
  List.takeWhile_eq_self_iff.2 (by simpa using hdepth)

end TreeLine

/-- An element of two lists is in the one or in the other. -/
theorem append_eq_append_cons {α : Type} {xs ys front back : List α} {x : α}
    (h : xs ++ ys = front ++ x :: back) :
    (∃ back', xs = front ++ x :: back' ∧ back = back' ++ ys) ∨
      ∃ front', front = xs ++ front' ∧ ys = front' ++ x :: back := by
  rcases List.append_eq_append_iff.1 h with ⟨front', hfront, hys⟩ | ⟨rest, hxs, hrest⟩
  · exact .inr ⟨front', hfront, hys⟩
  · cases rest with
    | nil => exact .inr ⟨[], by simpa using hxs.symm, hrest.symm⟩
    | cons x' back' =>
      rw [List.cons_append, List.cons.injEq] at hrest
      obtain ⟨rfl, rfl⟩ := hrest
      exact .inl ⟨back', hxs, rfl⟩

/-! ### Marks -/

/-- A mark tells whether the module is among the ancestors of its line, and otherwise whether its
dependencies have been shown before. -/
structure TreeMark.Tells (mark : TreeMark) (n : Node) (isAncestor isExpanded : Prop) : Prop where
  cycle_iff : mark = .cycle ↔ isAncestor
  seen_iff : mark = .seen ↔ ¬isAncestor ∧ n.dependencies ≠ [] ∧ isExpanded

/-- The mark that a line gets tells whether the module is an ancestor, and whether it has been
expanded. -/
theorem TreeMark.tells_of (n : Node) (id : Nat) (ancestors expanded : List Nat) :
    (TreeMark.of n id ancestors expanded).Tells n (id ∈ ancestors) (id ∈ expanded) := by
  rw [TreeMark.of]
  split
  · next hid => exact ⟨by simp [hid], by simp [hid]⟩
  · next hid =>
    split
    · next hseen => exact ⟨by simp [hid], by simp [hid, hseen]⟩
    · next hseen => exact ⟨by simp [hid], by simpa [hid] using hseen⟩

/-- What a mark tells can be said in another way. -/
theorem TreeMark.Tells.congr {mark : TreeMark} {n : Node} {isAncestor isAncestor' : Prop}
    {isExpanded isExpanded' : Prop} (h : mark.Tells n isAncestor isExpanded)
    (hancestor : isAncestor ↔ isAncestor') (hexpanded : isExpanded ↔ isExpanded') :
    mark.Tells n isAncestor' isExpanded' := by
  rwa [← propext hancestor, ← propext hexpanded]

namespace Analysis.Visits

/-- No line of the same ancestors, or below one, encloses what is printed after it. -/
theorem closesCycle_append_iff (h : a.Visits v ancestors pending expanded lines expanded')
    (hl : lines = front ++ l :: back) (before : List TreeLine)
    (hbefore : ∀ l' ∈ before, ancestors.length ≤ l'.depth) :
    l.ClosesCycle (before ++ front) ↔ l.ClosesCycle front := by
  obtain ⟨first, hfirst⟩ : ∃ first, (front ++ [l]).head? = some first := by
    cases front <;> simp
  have hdepth : first.depth = ancestors.length := by
    refine h.depth_of_head? ?_
    rw [hl, List.append_cons, List.head?_append, hfirst]
    rfl
  exact TreeLine.closesCycle_append_iff hfirst (by rwa [hdepth])

/-- Whichever line is looked at, its mark tells whether its module is among the ancestors, and
whether it has been expanded before. -/
theorem tells (h : a.Visits v ancestors pending expanded lines expanded')
    (hl : lines = front ++ l :: back) :
    ∃ n, a.nodes[l.id]? = some n ∧ l.mark.Tells n (l.id ∈ ancestors ∨ l.ClosesCycle front)
      (l.id ∈ expanded ∨ HasExpanded front l.id) := by
  induction h generalizing front back with
  | nil => exact absurd hl (by simp)
  | hidden _ _ ih => exact ih hl
  | @cut ancestors expanded _ id _ _ _ n hn _ hmark h ih =>
    cases front with
    | nil =>
      cases hl
      refine ⟨n, hn, (TreeMark.tells_of n id ancestors expanded).congr ?_ ?_⟩
      · simp [TreeLine.not_closesCycle_nil]
      · simp [not_hasExpanded_nil]
    | cons first front =>
      rw [List.cons_append, List.cons.injEq] at hl
      obtain ⟨rfl, hrest⟩ := hl
      obtain ⟨m, hm, htells⟩ := ih hrest
      refine ⟨m, hm, htells.congr (or_congr_right ?_) (or_congr_right ?_)⟩
      · exact (h.closesCycle_append_iff hrest [_] (by simp)).symm
      · simp [hasExpanded_cons_iff, hmark]
  | @expand ancestors expanded _ _ id _ _ below _ n hn _ hmark hbelow h ihbelow ih =>
    have hdeeper : ∀ l' ∈ below, ancestors.length < l'.depth := hbelow.length_le_depth
    cases front with
    | nil =>
      cases hl
      have htells := TreeMark.tells_of n id ancestors expanded
      rw [hmark] at htells
      refine ⟨n, hn, htells.congr ?_ ?_⟩
      · simp [TreeLine.not_closesCycle_nil]
      · simp [not_hasExpanded_nil]
    | cons first front =>
      rw [List.cons_append, List.cons.injEq] at hl
      obtain ⟨rfl, hrest⟩ := hl
      rcases append_eq_append_cons hrest with ⟨back, hl, -⟩ | ⟨front, rfl, hl⟩
      · -- The line is below the expanded one.
        obtain ⟨m, hm, htells⟩ := ihbelow hl
        have hfront : ∀ l' ∈ front, ancestors.length < l'.depth := fun l' hl' =>
          hdeeper l' (by rw [hl]; exact List.mem_append_left _ hl')
        have hlt : ancestors.length < l.depth := hdeeper l (by simp [hl])
        refine ⟨m, hm, htells.congr ?_ ?_⟩
        · rw [TreeLine.closesCycle_cons_iff hlt hfront, List.mem_cons]
          simp only [@eq_comm _ l.id, or_assoc, or_left_comm]
        · rw [hasExpanded_cons_iff, List.mem_cons]
          simp only [and_true, @eq_comm _ l.id, or_assoc, or_left_comm]
      · -- The line comes after all that is below the expanded one.
        obtain ⟨m, hm, htells⟩ := ih hl
        refine ⟨m, hm, htells.congr (or_congr_right ?_) ?_⟩
        · refine (h.closesCycle_append_iff hl (_ :: below) fun l' hl' => ?_).symm
          rcases List.mem_cons.1 hl' with rfl | hl'
          · exact Nat.le_refl _
          · exact Nat.le_of_lt (hdeeper l' hl')
        · rw [hbelow.mem_expanded_iff, List.mem_cons, hasExpanded_cons_iff, hasExpanded_append_iff]
          simp only [and_true, @eq_comm _ l.id, or_assoc, or_left_comm]

/-! ### What is below a line -/

/-- The lines of the visits themselves are those of the modules that are shown, in order. -/
theorem filter_depth_eq (h : a.Visits v ancestors pending expanded lines expanded') :
    (lines.filter (·.depth = ancestors.length)).map (fun l => (l.id, l.edge)) =
      pending.filter fun e => a.showsAt v e.1 ancestors.length := by
  induction h with
  | nil => rfl
  | hidden hshows _ ih => rw [List.filter_cons_of_neg (by simp [hshows]), ih]
  | cut hn hshows _ _ ih =>
    rw [List.filter_cons_of_pos (by simp), List.map_cons, ih,
      List.filter_cons_of_pos (by rwa [showsAt_of_getElem? hn])]
  | @expand ancestors _ _ _ _ _ _ below _ n hn hshows _ hbelow _ _ ih =>
    have hnone : below.filter (·.depth = ancestors.length) = [] := by
      refine List.filter_eq_nil_iff.2 fun l hl => ?_
      have hlt : ancestors.length < l.depth := hbelow.length_le_depth l hl
      simpa using Nat.ne_of_gt hlt
    rw [List.filter_cons_of_pos (by simp), List.filter_append, hnone, List.nil_append,
      List.map_cons, ih, List.filter_cons_of_pos (by rwa [showsAt_of_getElem? hn])]

/-- Below a line that is expanded are those of the dependencies that are shown there, in order, and
below any other line there is none. -/
theorem children_eq (h : a.Visits v ancestors pending expanded lines expanded')
    (hl : lines = front ++ l :: back) {n : Node} (hn : a.nodes[l.id]? = some n) :
    (l.mark = .expanded → (l.children back).map (fun l' => (l'.id, l'.edge)) =
      n.children.filter fun e => a.showsAt v e.1 (l.depth + 1)) ∧
    (l.mark ≠ .expanded → l.below back = []) := by
  induction h generalizing front back with
  | nil => exact absurd hl (by simp)
  | hidden _ _ ih => exact ih hl
  | @cut ancestors _ _ _ _ _ _ _ _ _ hmark h ih =>
    cases front with
    | nil =>
      cases hl
      refine ⟨fun heq => absurd heq hmark, fun _ => ?_⟩
      exact TreeLine.below_append [] fun first hfirst =>
        Nat.le_of_eq (h.depth_of_head? hfirst)
    | cons first front =>
      rw [List.cons_append, List.cons.injEq] at hl
      exact ih hl.2
  | @expand ancestors _ _ _ _ _ _ below rest m hm _ hmark hbelow h ihbelow ih =>
    have hdeeper : ∀ l' ∈ below, ancestors.length < l'.depth := hbelow.length_le_depth
    cases front with
    | nil =>
      cases hl
      obtain rfl : m = n := Option.some.inj (hm.symm.trans hn)
      refine ⟨fun _ => ?_, fun hne => absurd rfl hne⟩
      rw [TreeLine.children, TreeLine.below_append _ fun first hfirst =>
        Nat.le_of_eq (h.depth_of_head? hfirst), TreeLine.below_eq_self hdeeper]
      exact hbelow.filter_depth_eq
    | cons first front =>
      rw [List.cons_append, List.cons.injEq] at hl
      obtain ⟨-, hrest⟩ := hl
      rcases append_eq_append_cons hrest with ⟨back, hl, rfl⟩ | ⟨front, rfl, hl⟩
      · -- What comes after all that is below the expanded line is not below the line either.
        have hlt : ancestors.length < l.depth := hdeeper l (by simp [hl])
        rw [TreeLine.children, TreeLine.below_append _ fun first hfirst =>
          (h.depth_of_head? hfirst).trans_le (Nat.le_of_lt hlt)]
        exact ihbelow hl
      · exact ih hl

end Analysis.Visits

end DllGraph
