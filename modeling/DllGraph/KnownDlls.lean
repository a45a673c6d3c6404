import DllGraph.BinarySearch
import DllGraph.Failure
import DllGraph.Sorted
import DllGraph.Text.Blank
import DllGraph.Text.Lowercase

/-!
# Known DLLs

A Windows installation keeps a list of DLLs that are mapped from one fixed directory, whatever the
search order says. The names on the list are lowercase ASCII and strictly ascending, so that
membership is a binary search; a name to look up is compared without regard to ASCII case.

## Main definitions

* `KnownDlls.ofNames`, which accepts a list that is in order already;
* `KnownDlls.ofUnsorted` and `KnownDlls.ofText`, which put names in order first;
* `KnownDlls.windowsDefault`, the list of a stock installation;
* `KnownDlls.contains` and `KnownDlls.lookup?`.
-/

namespace DllGraph

/-- The known DLLs: their names in order, and the directory that they are mapped from. -/
structure KnownDlls where
  names : Array String
  directory : Path
deriving DecidableEq, Inhabited

namespace KnownDlls

/-- Whether a name may stand in the list: it is not empty, and all ASCII without capitals. -/
def isListable (name : String) : Bool :=
  name != "" && name.toList.all fun c => decide (c.toNat < 0x80) && !c.isUpper

/-- The first two neighbours that do not ascend. -/
def firstDescent? : List String → Option (String × String)
  | first :: second :: rest =>
    if first < second then firstDescent? (second :: rest) else some (first, second)
  | _ => none

/-- The known DLLs of a list, which must be lowercase ASCII and strictly ascending. -/
def ofNames (names : List String) (directory : Path) : Except Failure KnownDlls :=
  match names.find? (!isListable ·) with
  | some bad => .error (.notLowercase bad)
  | none =>
    match firstDescent? names with
    | some (first, second) => .error (.outOfOrder first second)
    | none => .ok ⟨names.toArray, directory⟩

/-- The form in which a name stands in the list. -/
def listed (name : String) : String :=
  Text.asciiLowercase (Text.trim name)

/-- The known DLLs of any names: blank ones are left out, and the others are put in order. -/
def ofUnsorted (names : List String) (directory : Path) : Except Failure KnownDlls :=
  ofNames (Sorted.ofList ((names.map listed).filter (· != ""))) directory

/-- Whether a line of a list holds a name: it is neither blank nor a comment. -/
def isNameLine (line : String) : Bool :=
  line != "" && line.toList.head? != some '#'

/-- The known DLLs of a text with one name per line. Blank lines are left out, and so are lines
that start with `#`. -/
def ofText (text : String) (directory : Path) : Except Failure KnownDlls :=
  ofUnsorted (((Text.lines text).map Text.trim).filter isNameLine) directory

/-- The known DLLs of a file with one name per line. -/
def ofFile (t : FileTree) (file directory : Path) : Except Failure KnownDlls :=
  match t.readText file with
  | .error e => .error (.file e)
  | .ok text => ofText text directory

/-- The known DLLs of a stock Windows installation. -/
def windowsDefault (directory : Path) : KnownDlls where
  names := #[
    "advapi32.dll", "clbcatq.dll", "combase.dll", "comdlg32.dll", "coml2.dll", "difxapi.dll",
    "gdi32.dll", "gdiplus.dll", "imagehlp.dll", "imm32.dll", "kernel32.dll", "kernelbase.dll",
    "msctf.dll", "msvcrt.dll", "normaliz.dll", "nsi.dll", "ntdll.dll", "ole32.dll",
    "oleaut32.dll", "psapi.dll", "rpcrt4.dll", "sechost.dll", "setupapi.dll", "shcore.dll",
    "shell32.dll", "shlwapi.dll", "user32.dll", "wldap32.dll", "wow64.dll", "wow64win.dll",
    "ws2_32.dll"]
  directory

/-- Compare the name at a position with a given one. -/
def compareAt (k : KnownDlls) (name : String) (i : Nat) : Ordering :=
  match k.names[i]? with
  | some other => compare other name
  | none => .gt

/-- The position of a name in the list, without regard to ASCII case. -/
def position? (k : KnownDlls) (name : String) : Option Nat :=
  binarySearch (k.compareAt (Text.asciiLowercase name)) k.names.size

/-- Whether a DLL is on the list. -/
def contains (k : KnownDlls) (name : String) : Bool :=
  (k.position? name).isSome

/-- The path that a DLL on the list is mapped from. -/
def lookup? (k : KnownDlls) (name : String) : Option Path := do
  let listedName ← k.names[← k.position? name]?
  some (k.directory.child listedName)

end KnownDlls

end DllGraph
