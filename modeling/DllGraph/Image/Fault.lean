import DllGraph.Text.Hex

/-!
# Faults of an Image

What can be wrong with an image. A fault concerns the header, the table or the entry that was
being read, and whoever reads decides how far it spreads.

## Main definitions

* `Fault`, with the text of each in `Fault.message` and the address it refers to in `Fault.rva?`;
* `Diagnostic`, a fault as it is reported for a module;
* `Salvaged`, what could be read of a structure together with every fault met on the way.
-/

namespace DllGraph

/-- The tables that end with an all-zero entry. -/
inductive TableKind where
  | importDirectory
  | delayDirectory
  | importLookup
  | delayNames
deriving DecidableEq, Inhabited

/-- How a table is called in a message. -/
def TableKind.label : TableKind → String
  | .importDirectory => "import directory table"
  | .delayDirectory => "delay-load directory table"
  | .importLookup => "import lookup table"
  | .delayNames => "delay import name table"

/-- What can be wrong with a string in an image. -/
inductive StringFault where
  | nullAddress
  | outsideSection
  | unterminated
  | empty
  | notPrintable
deriving DecidableEq, Inhabited

/-- The wording of what is wrong with a string. -/
def StringFault.message : StringFault → String
  | .nullAddress => "null address"
  | .outsideSection => "outside the section"
  | .unterminated => "missing terminator"
  | .empty => "empty"
  | .notPrintable => "not printable ASCII"

/-- What can be wrong with an image. -/
inductive Fault where
  /-- The file is shorter than the structure being read. -/
  | fileTooShort (needed actual : Nat)
  /-- The file does not start with `MZ`. -/
  | invalidDosMagic
  /-- The offset of the new header points outside the file. -/
  | invalidNewHeaderOffset (offset : Nat)
  /-- The new header does not start with its signature. -/
  | invalidPeMagic (found : UInt32)
  /-- The optional header is of neither width. -/
  | invalidOptionalMagic (found : UInt16)
  /-- The optional header is too small for its fixed fields. -/
  | invalidOptionalSize (size : UInt16)
  /-- The data directories do not fit in the optional header. -/
  | invalidDirectoryCount (count : UInt32)
  /-- The section table does not fit in the file. -/
  | invalidSectionTable (count : UInt16)
  /-- No section contains the address. -/
  | notFound (rva : UInt32)
  /-- The object starts inside a section and runs past its raw data. -/
  | outOfBounds (rva size : UInt32)
  /-- The address lies outside the section that its table lies in. -/
  | notInSection (rva : UInt32)
  /-- The table has no all-zero entry where there is room for one. -/
  | endless (table : TableKind)
  /-- The string cannot be read. -/
  | invalidString (rva : UInt32) (reason : StringFault)
  /-- The lookup entry has reserved bits set. -/
  | invalidLookupEntry (value : UInt64)
  /-- The export table contradicts itself. -/
  | invalidExportTable (detail : String)
deriving DecidableEq, Inhabited

namespace Fault

/-- The text of a fault. -/
def message : Fault → String
  | fileTooShort needed actual =>
    s!"File too short: {needed} bytes needed, {actual} available"
  | invalidDosMagic => "Invalid DOS magic"
  | invalidNewHeaderOffset offset =>
    "New header offset " ++ Text.hex offset ++ " points outside the file"
  | invalidPeMagic found => "Invalid PE magic " ++ Text.hexPadded 8 found.toNat
  | invalidOptionalMagic found =>
    "Invalid PE optional header magic " ++ Text.hexPadded 4 found.toNat
  | invalidOptionalSize size => s!"Invalid PE optional header size {size.toNat}"
  | invalidDirectoryCount count => s!"Invalid PE number of RVA and sizes: {count.toNat}"
  | invalidSectionTable count =>
    s!"Section table of {count.toNat} entries does not fit in the file"
  | notFound rva => "RVA " ++ Text.hex rva.toNat ++ " not found in any section"
  | outOfBounds rva size =>
    "Object at RVA " ++ Text.hex rva.toNat ++
      s!" of {size.toNat} bytes does not fit in the section raw data"
  | notInSection rva => "RVA " ++ Text.hex rva.toNat ++ " is not in the same section as its table"
  | endless table => "Could not find the end of the " ++ table.label
  | invalidString rva reason =>
    "Invalid string at RVA " ++ Text.hex rva.toNat ++ ": " ++ reason.message
  | invalidLookupEntry value => "Invalid import lookup entry " ++ Text.hex value.toNat
  | invalidExportTable detail => "Invalid export table: " ++ detail

/-- The address that a fault refers to, when there is one. -/
def rva? : Fault → Option UInt32
  | notFound rva => some rva
  | outOfBounds rva _ => some rva
  | notInSection rva => some rva
  | invalidString rva _ => some rva
  | _ => none

/-- The value, or the fault that its absence means. -/
def expect {α : Type} (fault : Fault) : Option α → Except Fault α
  | some a => .ok a
  | none => .error fault

end Fault

/-- A problem with a module, as it is reported: the module, the address it refers to when that is
known, and what is wrong. -/
structure Diagnostic where
  moduleName : String
  offset : Option Nat
  reason : String
deriving DecidableEq, Inhabited

namespace Diagnostic

/-- The report of a fault in a module. -/
def ofFault (moduleName : String) (fault : Fault) : Diagnostic :=
  ⟨moduleName, fault.rva?.map UInt32.toNat, fault.message⟩

/-- The text of a report. -/
def message (d : Diagnostic) : String :=
  match d.offset with
  | some offset => d.moduleName ++ " @ " ++ Text.hex offset ++ ": " ++ d.reason
  | none => d.moduleName ++ ": " ++ d.reason

end Diagnostic

/-- What could be read of a structure, and every fault met on the way, in order. -/
structure Salvaged (α : Type) where
  value : α
  faults : List Fault
deriving DecidableEq

end DllGraph
