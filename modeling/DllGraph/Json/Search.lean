import DllGraph.Json
import DllGraph.SearchPath.Basic

/-!
# Queries and Search Paths as JSON

How what an analysis starts from, and where it finds things, is written. A path is written as it is
shown.
-/

namespace DllGraph

/-- The path as it is shown. -/
def Path.toJson (p : Path) : Json :=
  .str p.text

/-- The names and the directory of known DLLs. -/
def KnownDlls.toJson (k : KnownDlls) : Json :=
  .obj [("names", .ofList .str k.names.toList), ("directory", k.directory.toJson)]

/-- The fields of an installation. -/
def Installation.toJson (i : Installation) : Json :=
  .obj [
    ("safe_dll_search_mode_on", .ofOption .bool i.safeSearch),
    ("known_dlls", .ofOption KnownDlls.toJson i.knownDlls),
    ("win_dir", i.windowsDir.toJson),
    ("sys_dir", i.systemDir.toJson),
    ("sys16_dir", i.system16Dir.toJson),
    ("system_path", .ofOption (.ofList Path.toJson) i.systemPath)]

/-- The installation of a query and what the query asks about. -/
def Query.toJson (q : Query) : Json :=
  .obj [
    ("system", .ofOption Installation.toJson q.installation),
    ("target", .obj [
      ("roots", .ofList Path.toJson q.roots),
      ("working_dir", q.workingDir.toJson),
      ("user_path", .ofList Path.toJson q.userPath)])]

/-- An entry of a search path by its name, with its folder if it has one. -/
def SearchEntry.toJson : SearchEntry → Json
  | sideBySide => .str "SideBySide"
  | knownDlls => .str "KnownDLLs"
  | executableDir => .str "ExecutableDir"
  | systemDir folder => .obj [("SystemDir", folder.toJson)]
  | system16Dir folder => .obj [("SystemDir16", folder.toJson)]
  | windowsDir folder => .obj [("WindowsDir", folder.toJson)]
  | workingDir folder => .obj [("WorkingDir", folder.toJson)]
  | systemPath folder => .obj [("SystemPath", folder.toJson)]
  | userPath folder => .obj [("UserPath", folder.toJson)]

/-- Where a file was found. -/
def Hit.toJson (h : Hit) : Json :=
  .obj [("location", h.location.toJson), ("fullpath", h.path.toJson)]

end DllGraph
