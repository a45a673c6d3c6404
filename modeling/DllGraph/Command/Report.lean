import DllGraph.Command.Options
import DllGraph.Decorated.Declaration
import DllGraph.Graph.Check
import DllGraph.Graph.Tree

/-!
# Reports of the Command

The texts that the command prints about an analysis: the dependency tree, the list of modules, and
what is missing.

## Main definitions

* `treeReport`, `modulesReport` and `missingReport`, each as one text;
* `lineText`, a line of the tree.
-/

namespace DllGraph.Command

/-- A text with a line feed after it. -/
def line (text : String) : String := text ++ "\n"

/-- A path as it is shown: absolute if it leads to something, else as it was given. -/
def shownPath (t : FileTree) (p : Path) : String :=
  match t.readable p with
  | .ok text => text
  | .error _ => p.text

/-! ### The tree -/

/-- Where a module is, as it is shown in the tree. -/
def shownLocation (t : FileTree) (fullPaths : Bool) (n : Node) : String :=
  match n.path with
  | none => "not found"
  | some path =>
    if fullPaths then shownPath t path
    else
      match path.parent? with
      | some dir => shownPath t dir
      | none => "INVALID"

/-- What is noted about a dependency. -/
def edgeTags (n : Node) (d : Dependency) : List String :=
  (if d.delayLoad then ["[delay-load]"] else []) ++
    (if n.isFound ∧ d.status = .unresolved then ["[missing symbols]"] else [])

/-- What is noted about a mark. -/
def markTags : TreeMark → List String
  | .expanded => []
  | .cycle => ["[cycle]"]
  | .seen => ["[see above]"]

/-- What is noted about a line of the tree. -/
def lineTags (n : Node) (l : TreeLine) : List String :=
  (if n.isKnownDll then ["[Known DLL]"] else []) ++
    (if n.diagnostics.isEmpty then [] else ["[invalid]"]) ++
    (l.edge.map (edgeTags n)).getD [] ++ markTags l.mark

/-- What is said of a module on a line of the tree. -/
def nodeText (t : FileTree) (fullPaths : Bool) (n : Node) (l : TreeLine) : String :=
  String.ofList (List.replicate l.depth '\t') ++ n.displayName ++ " => " ++
    shownLocation t fullPaths n ++ " " ++ " ".intercalate (lineTags n l)

/-- The text of a line of the tree. -/
def lineText (t : FileTree) (fullPaths : Bool) (a : Analysis) (l : TreeLine) : String :=
  match a.nodes[l.id]? with
  | none => ""
  | some n => line (nodeText t fullPaths n l)

/-- The text of the tree, with an empty line before each root. -/
def treeReport (t : FileTree) (o : Options) (a : Analysis) : String :=
  String.join <| (a.tree ⟨o.printSystemDlls, o.maxDepth⟩).map fun lines =>
    line "" ++ String.join (lines.map (lineText t o.fullPaths a))

/-! ### The modules -/

/-- The lines about a module in the list of modules. -/
def moduleText (t : FileTree) (n : Node) : String :=
  line (n.displayName ++ s!" (depth {n.depth}) => " ++
    ((n.path.map (shownPath t)).getD "not found")) ++
  (if n.isValid then line s!"\t{n.importCount} imports, {n.exportCount} exports" else "") ++
  String.join (n.diagnostics.map fun d => line ("\t" ++ d.message))

/-- The list of modules by depth, without those of the operating system unless they are asked
for. -/
def modulesReport (t : FileTree) (o : Options) (a : Analysis) : String :=
  line "\nModules:\n" ++
    String.join ((a.byDepth.filter fun n => o.printSystemDlls || !n.isSystem).map (moduleText t))

/-! ### What is missing -/

/-- The lines about the DLLs that were not found. -/
def missingDllsText (table : List (String × List String)) : String :=
  if table.isEmpty then line "No missing libraries detected"
  else
    line "Missing libraries detected!" ++
    line "[Importing executable, missing dependencies]\n" ++
    String.join (table.map fun entry =>
      line entry.1 ++ String.join (entry.2.map fun dll => line ("\t" ++ dll))) ++
    line ""

/-- A symbol as it is shown, undecorated if that is asked for and possible. -/
def shownSymbol (undecorate : Bool) (symbol : String) : String :=
  if undecorate then (Decorated.undecorate? symbol).getD symbol else symbol

/-- The lines about the symbols that a DLL does not export. -/
def missingFromDllText (undecorate : Bool) (entry : String × List String) : String :=
  line ("\t" ++ entry.1) ++
    String.join (entry.2.map fun symbol => line ("\t\t" ++ shownSymbol undecorate symbol))

/-- The lines about the symbols that were not found. -/
def missingSymbolsText (undecorate : Bool) (table : List (String × List (String × List String))) :
    String :=
  if table.isEmpty then line "No missing symbols detected"
  else
    line "\nMissing symbols detected!" ++
    line "[Importing executable, exporting executable, missing symbols]\n" ++
    String.join (table.map fun entry =>
      line entry.1 ++ String.join (entry.2.map (missingFromDllText undecorate)))

/-- The report of what is missing. -/
def missingReport (o : Options) (a : Analysis) : String :=
  let report := a.check
  line "\nChecking symbols...\n" ++ missingDllsText report.dlls ++
    missingSymbolsText o.undecorate report.symbols

end DllGraph.Command
