import DllGraph.Graph.Check
import DllGraph.Json.Image
import DllGraph.Json.Search

/-!
# Analyses as JSON

How the dependency graph and the report of what is missing are written. A module is referred to by
its position.
-/

namespace DllGraph

/-- A status by its name. -/
def ImportStatus.toJson : ImportStatus → Json
  | resolved => .str "Resolved"
  | forwarded => .str "ResolvedForwarded"
  | unresolved => .str "Unresolved"

/-- A symbol and what it was matched with. -/
def Pairing.toJson (p : Pairing) : Json :=
  .obj [
    ("symbol", p.symbol.toJson),
    ("status", p.status.toJson),
    ("export_index", .ofOption .num p.slot)]

/-- The fields of a dependency. -/
def Dependency.toJson (d : Dependency) : Json :=
  .obj [
    ("dll_name", .str d.dllName),
    ("target", .num d.target),
    ("delay_load", .bool d.delayLoad),
    ("imports", .ofList Pairing.toJson d.imports)]

/-- The fields of a module, without the bytes of its file. -/
def Node.toJson (n : Node) : Json :=
  .obj [
    ("name", .str n.name),
    ("file_path", .ofOption Path.toJson n.path),
    ("is_root", .bool n.isRoot),
    ("location", .ofOption SearchEntry.toJson n.location),
    ("depth", .num n.depth),
    ("image", .ofOption Image.toJson n.image),
    ("imports", .ofOption ImportTable.toJson n.imports),
    ("exports", .ofOption ExportTable.toJson n.exports),
    ("dependencies", .ofList Dependency.toJson n.dependencies),
    ("diagnostics", .ofList Diagnostic.toJson n.diagnostics)]

/-- The modules of an analysis and the positions of its roots. -/
def Analysis.toJson (a : Analysis) : Json :=
  .obj [
    ("nodes", .ofList Node.toJson a.nodes.toList),
    ("roots", .ofList .num a.roots)]

/-- The paths that are written for a module. -/
def Node.writtenPaths (n : Node) : List Path :=
  n.path.toList ++ (n.location.bind (·.folder?)).toList

/-- The text of an analysis over several lines. JSON has nothing but texts for paths, so there is
none if a path of the analysis is no text. -/
def Analysis.jsonText? (a : Analysis) : Option String :=
  if a.nodes.toList.all fun n => n.writtenPaths.all (·.isText) then some a.toJson.pretty else none

/-- Names by a key. -/
def groupedToJson (table : List (String × List String)) : Json :=
  .obj (table.map fun entry => (entry.1, .ofList .str entry.2))

/-- The two tables of a report. -/
def CheckReport.toJson (r : CheckReport) : Json :=
  .obj [
    ("not_found_libraries", groupedToJson r.dlls),
    ("not_found_symbols", .obj (r.symbols.map fun entry => (entry.1, groupedToJson entry.2)))]

end DllGraph
