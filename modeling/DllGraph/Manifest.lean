import DllGraph.Failure
import DllGraph.Text.Lowercase
import DllGraph.Xml.Reader

/-!
# Side-by-Side Manifests

A program `X.exe` may have a manifest `X.exe.manifest` next to it. The manifest redirects names of
DLLs to files of the program's own assembly, which it lists, or to files of private assemblies
that it depends on, which lie next to the program and have manifests of their own.

How a text becomes a document is left to a parser, which is an argument; a program that looks for
its own manifest uses the one of this library (`Xml.parse?`).

A redirection counts only if its file is there, and of several for one name the first one counts:
those of the program's manifest come before those of the assemblies, and each in document order.

## Main definitions

* `Redirections.ofText`, the redirections of an application manifest;
* `Redirections.ofBinary`, those of the manifest next to a program;
* `Redirections.find?`, the file that a name is redirected to.
-/

namespace DllGraph

/-- The files that DLL names are redirected to, by lowercase name. Of two entries for one name the
first one counts. -/
structure Redirections where
  entries : List (String × Path)
deriving DecidableEq, Inhabited

namespace Redirections

/-- No redirections. -/
def empty : Redirections := ⟨[]⟩

/-- Whether nothing is redirected. -/
def isEmpty (r : Redirections) : Bool := r.entries.isEmpty

/-- The file that a name is redirected to, without regard to case. -/
def find? (r : Redirections) (name : String) : Option Path :=
  r.entries.lookup (Text.lowercase name)

/-- The names of the files that a manifest lists, in document order. -/
def fileNames (root : Xml.Element) : List String :=
  (root.named "file").filterMap (·.attribute? "name")

/-- The names of the assemblies that a manifest depends on, in document order. -/
def assemblyNames (root : Xml.Element) : List String :=
  (root.namedInside "dependentAssembly" "assemblyIdentity").filterMap (·.attribute? "name")

/-- The redirections that a manifest declares for the assembly in a directory: the files that it
lists, as far as they are there. -/
def declared (t : FileTree) (root : Xml.Element) (dir : Path) : List (String × Path) :=
  ((fileNames root).map fun name => (Text.lowercase name, dir.child name)).filter
    fun e => t.isFile e.2

/-- The manifest of a private assembly: next to the program, or in a directory of its name. -/
def assemblyManifest? (t : FileTree) (dir : Path) (assembly : String) : Option Path :=
  let file := assembly ++ ".manifest"
  [dir.child file, (dir.child assembly).child file].find? t.isFile

/-- The root element of the manifest in a text, as a parser finds it. -/
def readRoot (parse? : String → Option Xml.Element) (text : String) :
    Except Failure Xml.Element :=
  match parse? text with
  | some root => .ok root
  | none => .error .malformedManifest

/-- The redirections that the manifest of a private assembly declares. -/
def ofAssembly (parse? : String → Option Xml.Element) (t : FileTree) (manifest : Path) :
    Except Failure (List (String × Path)) :=
  match t.readText manifest with
  | .error e => .error (.file e)
  | .ok text =>
    match readRoot parse? text with
    | .error e => .error e
    | .ok root => .ok ((manifest.parent?.map (declared t root)).getD [])

/-- The redirections that several manifests declare, those of an earlier one first. -/
def ofAssemblies (parse? : String → Option Xml.Element) (t : FileTree) :
    List Path → Except Failure (List (String × Path))
  | [] => .ok []
  | manifest :: rest =>
    match ofAssembly parse? t manifest with
    | .error e => .error e
    | .ok first =>
      match ofAssemblies parse? t rest with
      | .error e => .error e
      | .ok others => .ok (first ++ others)

/-- The redirections of an application manifest for the program in a directory. An assembly without
a manifest nearby is a shared one and redirects nothing. -/
def ofText (parse? : String → Option Xml.Element) (t : FileTree) (text : String) (dir : Path) :
    Except Failure Redirections :=
  match readRoot parse? text with
  | .error e => .error e
  | .ok root =>
    match ofAssemblies parse? t ((assemblyNames root).filterMap (assemblyManifest? t dir)) with
    | .error e => .error e
    | .ok others => .ok ⟨declared t root dir ++ others⟩

/-- The path of the manifest next to a program. -/
def sidecar? (binary : Path) : Option Path :=
  binary.fileName?.map fun name => binary.withFileName (name ++ ".manifest")

/-- The redirections of the manifest next to a program, if there is one. -/
def ofBinary (t : FileTree) (binary : Path) : Except Failure Redirections :=
  match sidecar? binary, binary.parent? with
  | some manifest, some dir =>
    if t.isFile manifest then
      match t.readText manifest with
      | .error e => .error (.file e)
      | .ok text => ofText Xml.parse? t text dir
    else .ok empty
  | _, _ => .ok empty

end Redirections

end DllGraph
