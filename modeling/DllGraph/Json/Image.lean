import DllGraph.Image.Exports
import DllGraph.Image.Imports
import DllGraph.Json

/-!
# Images as JSON

How headers, imports, exports and diagnostics are written. An alternative of several is written as
an object with its name as the only key, or as the name alone when it holds nothing.
-/

namespace DllGraph

/-- The two fields of a data directory. -/
def DataDirectory.toJson (d : DataDirectory) : Json :=
  .obj [("virtual_address", .num d.address.toNat), ("size", .num d.size.toNat)]

/-- The fields of a section. -/
def Section.toJson (s : Section) : Json :=
  .obj [
    ("name", .str s.name),
    ("virtual_address", .num s.address.toNat),
    ("virtual_size", .num s.virtualSize.toNat),
    ("raw_ptr", .num s.rawPointer.toNat),
    ("raw_size", .num s.rawSize.toNat),
    ("characteristics", .num s.characteristics.toNat)]

/-- The fields of the headers. -/
def Image.toJson (image : Image) : Json :=
  .obj [
    ("is_64bit", .bool image.is64Bit),
    ("machine", .num image.machine.toNat),
    ("characteristics", .num image.characteristics.toNat),
    ("timestamp", .num image.timestamp.toNat),
    ("image_base", .num image.imageBase.toNat),
    ("subsystem", .num image.subsystem.toNat),
    ("data_directories", .ofList DataDirectory.toJson image.directories),
    ("sections", .ofList Section.toJson image.sections)]

/-- A symbol as one of its three alternatives. -/
def ImportedSymbol.toJson : ImportedSymbol → Json
  | .byName hint name =>
    .obj [("ByName", .obj [("hint", .num hint.toNat), ("name", .str name)])]
  | .byOrdinal ordinal => .obj [("ByOrdinal", .obj [("ordinal", .num ordinal.toNat)])]
  | .invalid fault => .obj [("Invalid", .obj [("reason", .str fault.message)])]

/-- A DLL and its symbols. -/
def ImportedDll.toJson (d : ImportedDll) : Json :=
  .obj [
    ("dll_name", .str d.name),
    ("delay_load", .bool d.delayLoad),
    ("symbols", .ofList ImportedSymbol.toJson d.symbols)]

/-- The DLLs of an import table. -/
def ImportTable.toJson (t : ImportTable) : Json :=
  .obj [("dlls", .ofList ImportedDll.toJson t.dlls)]

/-- A slot of an address table as one of its three alternatives. -/
def ExportTarget.toJson : ExportTarget → Json
  | .code rva => .obj [("Code", .num rva.toNat)]
  | .forwarder symbol => .obj [("Forwarder", .str symbol)]
  | .empty => .str "Empty"

/-- A name and the slot it refers to. -/
def ExportName.toJson (e : ExportName) : Json :=
  .obj [("name", .str e.name), ("address_index", .num e.slot.toNat)]

/-- The fields of an export table. -/
def ExportTable.toJson (t : ExportTable) : Json :=
  .obj [
    ("dll_name", .ofOption .str t.dllName),
    ("ordinal_base", .num t.ordinalBase.toNat),
    ("address_table", .ofList ExportTarget.toJson t.addresses.toList),
    ("names", .ofList ExportName.toJson t.names.toList),
    ("names_sorted", .bool t.namesSorted)]

/-- The fields of a diagnostic. -/
def Diagnostic.toJson (d : Diagnostic) : Json :=
  .obj [
    ("module", .str d.moduleName),
    ("offset", .ofOption .num d.offset),
    ("reason", .str d.reason)]

end DllGraph
