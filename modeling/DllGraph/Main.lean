import DllGraph.Command.Run

/-!
# The Program

The command on the files of the disk. The part of the disk that the command may ask about is
copied into a file tree, the command runs on that, and what it printed and wrote is handed on.

Listings come first: of the folders that the arguments name, of those that an installation of
Windows would lie in, and of those on the search path. The contents of a file are read once the
analysis has found that it needs them, so a run over a large system folder stays small.
-/

namespace DllGraph.Command

/-- A copy of part of the disk, with the folders that have been listed and the files that have been
read. A file that has not been read is there and is empty. -/
structure Snapshot where
  tree : FileTree
  listed : List Place
  loaded : List Place

namespace Snapshot

/-- The place that a path names, whatever lies on the way. -/
def placeOf (s : Snapshot) (p : Path) : Place :=
  p.pieces.foldl (fun (place : Place) (piece : RawText) =>
    if piece = "" ∨ piece = "." then place
    else if piece = ".." then place.dropLast
    else place ++ [piece]) (if p.isAbsolute then [] else s.tree.workingDir)

/-- Read the contents of a file that has not been read yet. Only a path that is a text can be
opened. -/
def load (s : Snapshot) (place : Place) : IO Snapshot := do
  if place ∈ s.loaded then return s
  let s := { s with loaded := place :: s.loaded }
  let some path := (FileTree.pathOf place).raw.text? | return s
  try
    let content ← IO.FS.readBinFile path
    return { s with tree := (s.tree.makeDirs place.dropLast).put place (.file content) }
  catch _ => return s

/-- List a folder that has not been listed yet, and read the manifests in it. -/
def list (s : Snapshot) (place : Place) : IO Snapshot := do
  if place ∈ s.listed then return s
  let mut s := { s with listed := place :: s.listed }
  let some path := (FileTree.pathOf place).raw.text? | return s
  try
    let folder ← IO.FS.realPath path
    if ← folder.isDir then
      s := { s with tree := s.tree.makeDirs place }
      for e in ← folder.readDir do
        let below : Place := place ++ [RawText.ofString e.fileName]
        if (s.tree.at? below).isNone then
          let entry := if ← e.path.isDir then Entry.directory else .file .empty
          s := { s with tree := s.tree.put below entry }
        if e.fileName.endsWith ".manifest" then
          s ← s.load below
    return s
  catch _ => return s

/-- List several folders. -/
def listAll (s : Snapshot) (places : List Place) : IO Snapshot :=
  places.foldlM list s

end Snapshot

/-- The folders of an installation of Windows on a partition. -/
def systemFolders (root : Place) : List Place :=
  let windows : Place := root ++ [RawText.ofString "Windows"]
  [windows ++ [RawText.ofString "System32"], windows ++ [RawText.ofString "System"], windows]

/-- The places above a place, and the place itself. -/
def placesAbove (place : Place) : List Place :=
  (List.range (place.length + 1)).map place.take

/-- The folders to list before anything is known of the files. -/
def Options.folders (s : Snapshot) (o : Options) : List Place :=
  let named := o.inputs ++ [o.outputJsonPath, o.knownDlls, o.searchPathFile].filterMap id
  let searched := [o.workingDir, o.knownDllsDir].filterMap id ++
    listedFolders (o.userPath.getD "")
  let roots := (o.inputs.map s.placeOf).flatMap placesAbove ++ o.windowsRoot.toList.map s.placeOf
  named.map (fun p => (s.placeOf p).dropLast) ++ searched.map s.placeOf ++
    searched.map (fun p => (s.placeOf p).dropLast) ++ roots.flatMap systemFolders

/-- The folders of the search path, as far as it can be told yet. -/
def Options.searchFolders (s : Snapshot) (o : Options) : List Place :=
  match o.toQuery s.tree with
  | .error _ => []
  | .ok q =>
    match o.toSearchPath s.tree q with
    | .error _ => []
    | .ok path => path.folders.map s.placeOf

/-- The folders inside a listed folder, where private assemblies may lie. -/
def foldersInside (s : Snapshot) (place : Place) : List Place :=
  s.tree.entries.filterMap fun
    | (below, .directory) => if below.dropLast = place ∧ below ≠ [] then some below else none
    | _ => none

/-- Read the files that the analysis has come to need, until it needs no more of them. -/
partial def settle (o : Options) (s : Snapshot) : IO Snapshot := do
  match o.analyse s.tree with
  | .error _ => return s
  | .ok a =>
    let wanted := ((a.nodes.toList.filterMap (·.path)).map s.placeOf).filter (· ∉ s.loaded)
    if wanted.isEmpty then return s
    let s ← s.listAll (wanted.map List.dropLast)
    settle o (← wanted.foldlM Snapshot.load s)

/-- A copy of the part of the disk that some options are about. -/
def Options.snapshot (o : Options) : IO Snapshot := do
  let here ← IO.FS.realPath "."
  let workingDir : Place := (Path.pieces ⟨here.toString⟩).filter fun piece : RawText => piece != ""
  let s : Snapshot := ⟨⟨[], workingDir⟩, [], []⟩
  let s := { s with tree := s.tree.makeDirs workingDir }
  let s ← s.listAll (o.folders s)
  let s ← s.listAll ((o.inputs.map fun p => (s.placeOf p).dropLast).flatMap (foldersInside s))
  let s ← ([o.knownDlls, o.searchPathFile].filterMap id).foldlM (fun s p => s.load (s.placeOf p)) s
  let s ← s.listAll (o.searchFolders s)
  settle o s

/-- The files of the disk that a list of arguments is about. -/
def filesFor (arguments : List String) : IO FileTree :=
  match Invocation.ofArguments arguments with
  | .run o => return (← o.snapshot).tree
  | _ => return ⟨[], []⟩

/-- Write the JSON file that a list of arguments asks for. -/
def writeOutput (arguments : List String) (files : FileTree) : IO Unit := do
  match Invocation.ofArguments arguments with
  | .run o =>
    match o.outputJsonPath with
    | some file =>
      match files.load file with
      | .ok content => file.raw.text?.forM fun path => IO.FS.writeBinFile path content
      | .error _ => pure ()
    | none => pure ()
  | _ => pure ()

end DllGraph.Command

/-- Run the command with the arguments of the program. -/
def main (arguments : List String) : IO UInt32 := do
  let done := DllGraph.Command.run (← DllGraph.Command.filesFor arguments) arguments
  (← IO.getStdout).putStr done.out
  (← IO.getStderr).putStr done.err
  if done.exitCode = 0 then
    DllGraph.Command.writeOutput arguments done.files
  return UInt32.ofNat done.exitCode
