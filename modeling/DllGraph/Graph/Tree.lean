import DllGraph.Graph.Analysis

/-!
# The Dependency Tree

A dependency graph is shown as a tree, depth first from each root: a line for a module, and below
it, one level deeper, a line for each of its dependencies in order. The tree is cut where it would
repeat itself. A module that is among the ancestors of its own line closes a cycle, and a module
whose dependencies have been shown before is not expanded again.

A view may leave out the modules of the operating system, and everything below a depth.

## Main definitions

* `TreeView`, what of the tree is shown;
* `TreeLine`, a line, with a `TreeMark` that tells why it may not have lines below it;
* `Analysis.tree`, the lines of each root.
-/

namespace DllGraph

/-- What of the tree is shown. -/
structure TreeView where
  showsSystem : Bool
  /-- The number of levels that are shown; all of them if there is none. -/
  maxDepth : Option Nat
deriving DecidableEq, Inhabited

/-- Whether a module is shown at a depth. -/
def TreeView.shows (v : TreeView) (n : Node) (depth : Nat) : Bool :=
  (v.showsSystem || !n.isSystem) && v.maxDepth.all (depth < ·)

/-- Why a line may not have lines below it. -/
inductive TreeMark where
  /-- The dependencies of the module follow. -/
  | expanded
  /-- The module is an ancestor of its own line. -/
  | cycle
  /-- The dependencies of the module have been shown before. -/
  | seen
deriving DecidableEq, Inhabited

/-- A line of the tree: a module at a depth, with the dependency that leads to it. -/
structure TreeLine where
  depth : Nat
  /-- The position of the module. -/
  id : Nat
  edge : Option Dependency
  mark : TreeMark
deriving DecidableEq, Inhabited

/-- The mark of a line for a module, given the ancestors of the line and the modules that have been
expanded before. A module without dependencies is never marked as seen. -/
def TreeMark.of (n : Node) (id : Nat) (ancestors expanded : List Nat) : TreeMark :=
  if id ∈ ancestors then .cycle
  else if n.dependencies ≠ [] ∧ id ∈ expanded then .seen
  else .expanded

/-- Apply a visit to each dependency in order, handing on the modules that have been expanded. -/
def visitEach (visit : Nat → Option Dependency → List Nat → List TreeLine × List Nat) :
    List Dependency → List Nat → List TreeLine × List Nat
  | [], expanded => ([], expanded)
  | d :: rest, expanded =>
    let (lines, expanded) := visit d.target (some d) expanded
    let (others, expanded) := visitEach visit rest expanded
    (lines ++ others, expanded)

namespace Analysis

/-- The lines for a module below some ancestors, and the modules that have been expanded by then,
for at most `fuel` levels. -/
def visit (a : Analysis) (v : TreeView) :
    Nat → List Nat → Nat → Option Dependency → List Nat → List TreeLine × List Nat
  | 0, _, _, _, expanded => ([], expanded)
  | fuel + 1, ancestors, id, edge, expanded =>
    match a.nodes[id]? with
    | none => ([], expanded)
    | some n =>
      if v.shows n ancestors.length then
        let mark := TreeMark.of n id ancestors expanded
        let line : TreeLine := ⟨ancestors.length, id, edge, mark⟩
        match mark with
        | .expanded =>
          let (below, expanded) :=
            visitEach (a.visit v fuel (id :: ancestors)) n.dependencies (id :: expanded)
          (line :: below, expanded)
        | _ => ([line], expanded)
      else ([], expanded)

/-- The lines of each of some roots, given the modules that have been expanded before. The ancestors
of a line differ from each other, so there are at most as many levels as modules, and one more for
a line that closes a cycle. -/
def treeFrom (a : Analysis) (v : TreeView) : List Nat → List Nat → List (List TreeLine)
  | [], _ => []
  | root :: rest, expanded =>
    let (lines, expanded) := a.visit v (a.nodes.size + 1) [] root none expanded
    lines :: a.treeFrom v rest expanded

/-- The lines of each root. -/
def tree (a : Analysis) (v : TreeView) : List (List TreeLine) :=
  a.treeFrom v a.roots []

end Analysis

end DllGraph
