import DllGraph.SearchPath.Basic
import DllGraph.Text.Blank

/-!
# Search Path Files

A search path can be written down in a `.dwp` file, one entry per line. A line names a kind of
entry by its key; what the entry stands for comes from the query. White space around a line does
not matter, and neither do blank lines and comments.

## Main definitions

* `SearchPath.effectiveLines`, the lines of a file that count;
* `SearchPath.ofKey`, what a line stands for;
* `SearchPath.ofText` and `SearchPath.ofFile`.
-/

namespace DllGraph.SearchPath

/-- The characters that start a comment. -/
def commentMarks : List Char := [':', ';', '/', '\'', '#']

/-- Whether a line, without the white space around it, is neither blank nor a comment. -/
def isEffective (line : String) : Bool :=
  match line.toList with
  | [] => false
  | c :: _ => !commentMarks.contains c

/-- The lines that count, without the white space around them. -/
def effectiveLines (text : String) : List String :=
  ((Text.lines text).map Text.trim).filter isEffective

/-- What follows the key of a folder that the user has added. -/
def userFolder? (line : String) : Option Path :=
  let key := "UserDir ".toList
  if key.isPrefixOf line.toList then
    some ⟨Text.trim (String.ofList (line.toList.drop key.length))⟩
  else none

/-- The entries that a line stands for. A key of the operating system stands for nothing when there
is no installation, and the key for registered programs never stands for anything, since their
registrations apply to programs started from the shell only. -/
def ofKey (q : Query) (line : String) : Except Failure (List SearchEntry) :=
  let ofInstallation (entries : Installation → List SearchEntry) :=
    (q.installation.map entries).getD []
  match line with
  | "SxS" => .ok [.sideBySide]
  | "KnownDLLs" => .ok [.knownDlls]
  | "AppDir" => .ok [.executableDir]
  | "32BitSysDir" => .ok (ofInstallation fun i => [.systemDir i.systemDir])
  | "16BitSysDir" => .ok (ofInstallation fun i => [.system16Dir i.system16Dir])
  | "OSDir" => .ok (ofInstallation fun i => [.windowsDir i.windowsDir])
  | "AppPath" => .ok []
  | "SysPath" => .ok (ofInstallation systemPathEntries)
  | _ =>
    match userFolder? line with
    | some folder => .ok [.userPath folder]
    | none => .error (.unknownKey line)

/-- The entries that lines stand for, in order. The first line that is not understood is the one
that is reported. -/
def ofKeys (q : Query) : List String → Except Failure (List SearchEntry)
  | [] => .ok []
  | line :: rest =>
    match ofKey q line with
    | .error e => .error e
    | .ok first =>
      match ofKeys q rest with
      | .error e => .error e
      | .ok others => .ok (first ++ others)

/-- The search path in the text of a file. -/
def ofText (q : Query) (text : String) : Except Failure SearchPath :=
  match ofKeys q (effectiveLines text) with
  | .error e => .error e
  | .ok entries => .ok ⟨entries, q.knownDlls?⟩

/-- The search path in a file. -/
def ofFile (t : FileTree) (q : Query) (file : Path) : Except Failure SearchPath :=
  match t.readText file with
  | .error e => .error (.file e)
  | .ok text => ofText q text

end DllGraph.SearchPath
