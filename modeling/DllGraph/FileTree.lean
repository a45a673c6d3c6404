import DllGraph.Path

/-!
# File Trees

The files that an analysis may look at, as a value: a list of absolute places with what lies
there, and the directory that relative paths start from. There are no links, so the name of a
place is its only name, and a path leads to a place by walking its pieces one by one, each of
which needs a directory to stand in. A name is a raw text; files are looked up by texts, so the
listing of a directory leaves out the files whose names are none.

Everything that the rest of the library does with files goes through the operations of this
module, which fail with the causes, and the messages, of the system calls behind them.

## Main definitions

* `FileTree.find`, the walk from a path to a place;
* `FileTree.isFile`, `FileTree.isDir`, `FileTree.listFiles`, the questions that a lookup asks;
* `FileTree.load`, `FileTree.readText`, `FileTree.canonicalize`, reading, with a `FileError` for
  each way to fail;
* `FileTree.write`, `FileTree.remove`, the tree after a change.
-/

namespace DllGraph

/-! ### What can go wrong -/

/-- Why a file operation fails. -/
inductive FileError.Cause where
  | notFound
  | notDirectory
  | isDirectory
  | notMappable
  | invalidUtf8
deriving DecidableEq

/-- The text of a cause, with the number of the system error where there is one. -/
def FileError.Cause.message : FileError.Cause → String
  | .notFound => "No such file or directory (os error 2)"
  | .notDirectory => "Not a directory (os error 20)"
  | .isDirectory => "Is a directory (os error 21)"
  | .notMappable => "No such device (os error 19)"
  | .invalidUtf8 => "stream did not contain valid UTF-8"

/-- What was being done to a file when it failed. -/
inductive FileError.Action where
  | openFile
  | readFile
  | queryMetadata
  | canonicalize
  | createFile
deriving DecidableEq

/-- How an action is named in a message. -/
def FileError.Action.message : FileError.Action → String
  | .openFile => "open file"
  | .readFile => "read from file"
  | .queryMetadata => "query resolved metadata"
  | .canonicalize => "canonicalize path"
  | .createFile => "create file"

/-- A failed file operation: what was done, to which path as it was given, and why it failed.
Mapping a file into memory reports its cause alone. -/
inductive FileError where
  | failed (action : FileError.Action) (path : Path) (cause : FileError.Cause)
  | unmapped (cause : FileError.Cause)
deriving DecidableEq

/-- The message of a failed file operation. -/
def FileError.message : FileError → String
  | .failed action path cause =>
    "failed to " ++ action.message ++ " `" ++ path.text ++ "`: " ++ cause.message
  | .unmapped cause => cause.message

/-! ### Trees -/

/-- The names that lead from the root to a place. -/
abbrev Place := List RawText

/-- What lies at a place. -/
inductive Entry where
  | directory
  | file (content : ByteArray)

/-- Files and directories by place, and the place that relative paths start from. The root is a
directory without being listed, and of two entries for one place the first counts. -/
structure FileTree where
  entries : List (Place × Entry)
  workingDir : Place

namespace FileTree

/-- What lies at a place. -/
def at? (t : FileTree) : Place → Option Entry
  | [] => some .directory
  | place => t.entries.lookup place

/-- Follow the pieces of a path from a place, which every further piece needs to be a directory.
An empty piece and `.` stay, `..` goes up, and a name goes down to an entry that must exist. -/
def walk (t : FileTree) : Place → List RawText → Except FileError.Cause Place
  | place, [] => .ok place
  | place, piece :: rest =>
    match t.at? place with
    | none => .error .notFound
    | some (.file _) => .error .notDirectory
    | some .directory =>
      if piece = "" ∨ piece = "." then t.walk place rest
      else if piece = ".." then t.walk place.dropLast rest
      else if (t.at? (place ++ [piece])).isSome then t.walk (place ++ [piece]) rest
      else .error .notFound

/-- The place that a path leads to. The empty path leads nowhere. -/
def find (t : FileTree) (p : Path) : Except FileError.Cause Place :=
  if p.isEmpty then .error .notFound
  else t.walk (if p.isAbsolute then [] else t.workingDir) p.pieces

/-- What a path leads to. -/
def entry? (t : FileTree) (p : Path) : Option Entry :=
  match t.find p with
  | .ok place => t.at? place
  | .error _ => none

/-- Whether a path leads to anything. -/
def exists? (t : FileTree) (p : Path) : Bool :=
  (t.entry? p).isSome

/-- Whether a path leads to a file. -/
def isFile (t : FileTree) (p : Path) : Bool :=
  match t.entry? p with
  | some (.file _) => true
  | _ => false

/-- Whether a path leads to a directory. -/
def isDir (t : FileTree) (p : Path) : Bool :=
  match t.entry? p with
  | some .directory => true
  | _ => false

/-- The name under which an entry at `place` is listed as a file of the directory `dir`. A name that
is no text is not listed. -/
def fileNameIn? (dir : Place) : Place × Entry → Option String
  | (place, .file _) =>
    if place.dropLast = dir then place.getLast?.bind RawText.text? else none
  | (_, .directory) => none

/-- The names of the files in a directory, as far as they are texts; nothing if the path does not
lead to a directory. -/
def listFiles (t : FileTree) (p : Path) : Option (List String) :=
  match t.find p with
  | .error _ => none
  | .ok dir =>
    match t.at? dir with
    | some .directory => some (t.entries.filterMap (fileNameIn? dir))
    | _ => none

/-! ### Reading -/

/-- The bytes of a file, as they are mapped into memory. -/
def load (t : FileTree) (p : Path) : Except FileError ByteArray :=
  match t.find p with
  | .error cause => .error (.failed .queryMetadata p cause)
  | .ok place =>
    match t.at? place with
    | some (.file content) => .ok content
    | _ => .error (.unmapped .notMappable)

/-- The text of a file, which must be UTF-8. -/
def readText (t : FileTree) (p : Path) : Except FileError String :=
  match t.find p with
  | .error cause => .error (.failed .openFile p cause)
  | .ok place =>
    match t.at? place with
    | some (.file content) =>
      match String.fromUTF8? content with
      | some text => .ok text
      | none => .error (.failed .readFile p .invalidUtf8)
    | _ => .error (.failed .readFile p .isDirectory)

/-- The absolute path of a place. -/
def pathOf (place : Place) : Path :=
  ⟨⟨Path.slash :: [Path.slash].intercalate (place.map (·.bytes))⟩⟩

/-- The absolute path, without `.` and `..`, of what a path leads to. -/
def canonicalize (t : FileTree) (p : Path) : Except FileError Path :=
  match t.find p with
  | .error cause => .error (.failed .canonicalize p cause)
  | .ok place => .ok (pathOf place)

/-- The absolute path of what a path leads to, as a user would type it. -/
def readable (t : FileTree) (p : Path) : Except FileError String :=
  (t.canonicalize p).map fun q => Path.withoutVerbatim q.text

/-! ### Changing -/

/-- The tree with an entry put at a place. -/
def put (t : FileTree) (place : Place) (e : Entry) : FileTree :=
  { t with entries := (place, e) :: t.entries.filter (·.1 != place) }

/-- The tree with directories along the way from `above` down through further names. What is
there already stays. -/
def makeDirsFrom (t : FileTree) (above : Place) : List RawText → FileTree
  | [] => t
  | name :: rest =>
    let here := above ++ [name]
    (if (t.at? here).isSome then t else t.put here .directory).makeDirsFrom here rest

/-- The tree with a directory at a place and at every place above it. -/
def makeDirs (t : FileTree) (place : Place) : FileTree :=
  t.makeDirsFrom [] place

/-- The tree without a place and without everything below it. -/
def removeAt (t : FileTree) (place : Place) : FileTree :=
  { t with entries := t.entries.filter (!place.isPrefixOf ·.1) }

/-- The place where a file of a given path would be created: the name, in the directory that the
path before it leads to. -/
def findForWriting (t : FileTree) (p : Path) : Except FileError.Cause Place :=
  let start := if p.isAbsolute then [] else t.workingDir
  match p.pieces.getLast? with
  | none => .error .notFound
  | some last =>
    match t.walk start p.pieces.dropLast with
    | .error cause => .error cause
    | .ok dir =>
      match t.at? dir with
      | some .directory =>
        if p.isEmpty then .error .notFound
        else if last = "" ∨ last = "." ∨ last = ".." then .error .isDirectory
        else
          match t.at? (dir ++ [last]) with
          | some .directory => .error .isDirectory
          | _ => .ok (dir ++ [last])
      | some (.file _) => .error .notDirectory
      | none => .error .notFound

/-- The tree after a file has been created or replaced. Its directory must exist. -/
def write (t : FileTree) (p : Path) (content : ByteArray) : Except FileError FileTree :=
  match t.findForWriting p with
  | .error cause => .error (.failed .createFile p cause)
  | .ok place => .ok (t.put place (.file content))

/-- The tree after whatever a path leads to has been removed. -/
def remove (t : FileTree) (p : Path) : FileTree :=
  match t.find p with
  | .error _ => t
  | .ok place => t.removeAt place

/-! ### Size -/

/-- The number of bytes in an entry. -/
def Entry.size : Entry → Nat
  | .directory => 0
  | .file content => content.size

/-- The number of bytes in all files of the tree. -/
def size (t : FileTree) : Nat :=
  t.entries.foldr (fun entry size => Entry.size entry.2 + size) 0

end FileTree

end DllGraph
