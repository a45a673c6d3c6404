import DllGraph.Text.Raw

/-!
# Paths

A path is a raw text whose components are separated by `/`; every other byte, that of the backslash
included, belongs to a name. The operations here are lexical: none of them looks at a file. They
keep the bytes as they were given, so that a path built from another one can be shown as the user
wrote it, and they agree on what does not matter in it: repeated separators, a separator at the
end, and the component `.` anywhere but at the start of a relative path.

A name need not be a text. Modules are known by names that are, so a path to a module has a last
component that may be one (`Path.moduleName?`), and a path that is to be read is shown as the text
that comes nearest to it (`Path.text`).

## Main definitions

* `Path.components`, the sequence of components, by which two paths are compared (`Path.same`);
* `Path.parent?`, `Path.fileName?` and `Path.join`, the three ways to take a path apart and to
  build one; `Path.moduleName?`, the last component as a text;
* `Path.ancestors`, the path itself, its parent, the parent of that, and so on.
-/

namespace DllGraph

/-- The bytes of a path. Two paths of different bytes may still be the same; see `Path.same`. -/
structure Path where
  raw : RawText
deriving DecidableEq, Inhabited

namespace Path

/-- A component of a path: the root of an absolute path, the `.` that starts a relative one, a
step up, or a name. -/
inductive Component where
  | root
  | here
  | up
  | name (raw : RawText)
deriving DecidableEq, Inhabited

/-- The separator of components. -/
abbrev slash : UInt8 := 0x2F

/-- The byte that `.` and `..` are made of. -/
abbrev dot : UInt8 := 0x2E

/-- Cut bytes at each separator, with the current piece held in reverse. There is always one piece
more than there are separators. -/
def piecesFrom : List UInt8 → List UInt8 → List (List UInt8)
  | piece, [] => [piece.reverse]
  | piece, b :: rest =>
    if b = slash then piece.reverse :: piecesFrom [] rest else piecesFrom (b :: piece) rest

/-- The pieces of a path between its separators, empty ones included. -/
def pieces (p : Path) : List RawText :=
  (piecesFrom [] p.raw.bytes).map RawText.mk

/-- Whether nothing is written in the path. -/
def isEmpty (p : Path) : Bool :=
  p.raw.bytes.isEmpty

/-- Whether the path starts at the root. -/
def isAbsolute (p : Path) : Bool :=
  p.raw.bytes.head? == some slash

/-- The component that a piece stands for; an empty piece and a `.` stand for none. -/
def Component.ofPiece? (piece : RawText) : Option Component :=
  if piece = "" ∨ piece = "." then none
  else if piece = ".." then some .up
  else some (.name piece)

/-- The components of a path. -/
def components (p : Path) : List Component :=
  let body := p.pieces.filterMap Component.ofPiece?
  if p.isAbsolute then .root :: body
  else if p.pieces.head? = some (RawText.ofString ".") then .here :: body
  else body

/-- Whether two paths have the same components. -/
def same (p q : Path) : Bool :=
  p.components == q.components

/-! ### Taking a path apart

These work on the bytes of the path in reverse, where its end comes first. -/

/-- Drop what does not matter at the end of a path: separators, and a `.` after a separator. The
root and the leading `.` of a relative path stay. -/
def trimEnd : List UInt8 → List UInt8
  | b :: c :: rest =>
    if b = slash ∨ b = dot ∧ c = slash then trimEnd (c :: rest) else b :: c :: rest
  | bytes => bytes

/-- Whether a byte is not the separator. -/
def inName (b : UInt8) : Bool :=
  b != slash

/-- The bytes of the path in reverse, without what does not matter at its end. -/
def ending (p : Path) : List UInt8 :=
  trimEnd p.raw.bytes.reverse

/-- A path from its bytes in reverse. -/
def ofReversed (bytes : List UInt8) : Path :=
  ⟨⟨bytes.reverse⟩⟩

/-- The path without its last component; the root and the empty path have no parent. The parent of
a single name is the empty path. -/
def parent? (p : Path) : Option Path :=
  if p.ending = [] ∨ p.ending = [slash] then none
  else some (ofReversed (trimEnd (p.ending.dropWhile inName)))

/-- The last component of the path, if it is a name. -/
def fileName? (p : Path) : Option RawText :=
  let last : RawText := ⟨(p.ending.takeWhile inName).reverse⟩
  if last = "" ∨ last = "." ∨ last = ".." then none else some last

/-- The name of a module at the path: the last component, if it is a name and a text. -/
def moduleName? (p : Path) : Option String :=
  p.fileName?.bind RawText.text?

/-- The path, its parent, the parent of that, and so on, at most `fuel` of them. -/
def ancestorsWithin : Nat → Path → List Path
  | 0, _ => []
  | fuel + 1, p =>
    p :: match p.parent? with
      | none => []
      | some q => ancestorsWithin fuel q

/-- The path, its parent, the parent of that, and so on. Each is shorter than the one before it, so
there are at most one more of them than the path has bytes. -/
def ancestors (p : Path) : List Path :=
  ancestorsWithin (p.raw.bytes.length + 1) p

/-! ### Building a path -/

/-- The path `q` as seen from `p`: an absolute `q` stands for itself, and any other follows `p`
after a separator, which is left out when `p` is empty or ends in one. -/
def join (p : Path) (q : Path) : Path :=
  if q.isAbsolute then q
  else
    match p.raw.bytes.getLast? with
    | none => q
    | some b => if b = slash then ⟨p.raw ++ q.raw⟩ else ⟨p.raw ++ "/" ++ q.raw⟩

/-- The path of a name inside the directory `p`. -/
def child (p : Path) (name : RawText) : Path :=
  p.join ⟨name⟩

/-- The path with its last name replaced. A path that does not end in a name is extended. -/
def withFileName (p : Path) (name : RawText) : Path :=
  match p.fileName?, p.parent? with
  | some _, some dir => dir.child name
  | _, _ => p.child name

/-! ### Showing a path -/

/-- The path as it is shown. -/
def text (p : Path) : String :=
  p.raw.shown

/-- Whether the path is a text, and not only shown as one. -/
def isText (p : Path) : Bool :=
  p.raw.text?.isSome

/-- The mark in front of a path that is to be taken verbatim. -/
def verbatimMark : List Char := ['\\', '\\', '?', '\\']

/-- The text of a path without the mark that it is to be taken verbatim, which a user would not
type. -/
def withoutVerbatim (text : String) : String :=
  if verbatimMark.isPrefixOf text.toList then
    String.ofList (text.toList.drop verbatimMark.length)
  else text

end Path

end DllGraph
