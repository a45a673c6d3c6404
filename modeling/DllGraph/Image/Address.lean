import DllGraph.Image.Header

/-!
# Addresses

The tables of an image refer to each other by the addresses that their objects have once the image
is loaded, relative to its base. This module turns such an address into an offset in the file, and
reads the strings that addresses lead to. Every reader of a table goes through
`Image.locate` or `Image.locateIn` before it looks at a byte.
-/

namespace DllGraph

/-- Where an object lies in the file: the offset of its first byte, and the section that contains
it, with its index in the section table. -/
structure Location where
  offset : Nat
  index : Nat
  host : Section
deriving DecidableEq, Inhabited

namespace Section

/-- Whether an address lies in the part of the section that has raw data. -/
def covers (s : Section) (rva : UInt32) : Bool :=
  decide (s.address.toNat ≤ rva.toNat) && decide (rva.toNat < s.address.toNat + s.rawSize.toNat)

/-- Whether an address lies in the section as it is loaded. -/
def spans (s : Section) (rva : UInt32) : Bool :=
  decide (s.address.toNat ≤ rva.toNat) &&
    decide (rva.toNat < s.address.toNat + s.virtualSize.toNat)

/-- The offset in the file that goes with an address of the section. -/
def offsetOf (s : Section) (rva : UInt32) : Nat :=
  s.rawPointer.toNat + (rva.toNat - s.address.toNat)

end Section

namespace Image

/-- Find an object of `size` bytes. The first section whose raw data covers its address decides,
and the object must end within the raw data of that section. -/
def locate (image : Image) (rva size : UInt32) : Except Fault Location :=
  match image.sections.zipIdx.find? (·.1.covers rva) with
  | none => .error (.notFound rva)
  | some (s, index) =>
    if s.rawEnd < s.offsetOf rva + size.toNat then .error (.outOfBounds rva size)
    else .ok ⟨s.offsetOf rva, index, s⟩

/-- Find an object that must lie in a given section. -/
def locateIn (image : Image) (index : Nat) (rva : UInt32) : Except Fault Location :=
  match image.sections[index]? with
  | none => .error (.notInSection rva)
  | some s =>
    if s.spans rva then
      if s.rawEnd ≤ s.offsetOf rva then .error (.outOfBounds rva 1)
      else .ok ⟨s.offsetOf rva, index, s⟩
    else .error (.notInSection rva)

end Image

/-! ### Strings -/

/-- The longest name of a DLL, its terminator included. -/
def maxDllName : Nat := 256

/-- The longest name of a symbol, its terminator included. -/
def maxSymbolName : Nat := 32768

/-- Whether a byte is a printable ASCII character. -/
def isPrintableAscii (b : UInt8) : Bool :=
  decide (32 ≤ b) && decide (b ≤ 126)

/-- The bytes from an offset up to a zero byte, which must come within `window` bytes. -/
def untilZero? (b : Bytes) : (offset window : Nat) → Option (List UInt8)
  | _, 0 => none
  | offset, window + 1 =>
    match b[offset]? with
    | none => none
    | some c => if c = 0 then some [] else (untilZero? b (offset + 1) window).map (c :: ·)

/-- The text of ASCII bytes. -/
def asciiText (bytes : List UInt8) : String :=
  String.ofList (bytes.map fun c => Char.ofNat c.toNat)

/-- Read the printable ASCII string at an offset in a section. It must be terminated within
`maxLength` bytes and within the raw data of the section; `rva` is the address to report. -/
def readAsciiAt (b : Bytes) (s : Section) (offset : Nat) (rva : UInt32) (maxLength : Nat) :
    Except Fault String :=
  let window := min (min s.rawEnd b.size - offset) maxLength
  if b.size < offset + window then .error (.invalidString rva .outsideSection)
  else
    match untilZero? b offset window with
    | none => .error (.invalidString rva .unterminated)
    | some bytes =>
      if bytes.isEmpty then .error (.invalidString rva .empty)
      else if bytes.all isPrintableAscii then .ok (asciiText bytes)
      else .error (.invalidString rva .notPrintable)

/-- Read the printable ASCII string at an address. -/
def readAscii (b : Bytes) (image : Image) (rva : UInt32) (maxLength : Nat) :
    Except Fault String :=
  if rva = 0 then .error (.invalidString rva .nullAddress)
  else
    match image.locate rva 1 with
    | .error fault => .error fault
    | .ok place => readAsciiAt b place.host place.offset rva maxLength

end DllGraph
