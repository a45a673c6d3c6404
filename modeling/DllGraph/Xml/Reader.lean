import DllGraph.Xml.Document
import DllGraph.Xml.Lexeme

/-!
# Reading XML

From a text to its root element. The reader is strict: it refuses everything that is not
well-formed, names with an undeclared qualifier, and documents with a document type. Elements are
closed in the order in which they were opened, so the ones that are still open form a stack.

## Main definitions

* `Scope.open?`, the attributes of an element once the namespaces that it declares are known;
* `Item`, what may stand inside an element;
* `parse?`, the root element of a text.
-/

namespace DllGraph.Xml

/-! ### Namespaces -/

/-- The namespace of the qualifier `xml`, which no other qualifier may have. -/
def xmlUri : String := "http://www.w3.org/XML/1998/namespace"

/-- The namespace of the qualifier `xmlns`, which none may be declared to have. -/
def xmlnsUri : String := "http://www.w3.org/2000/xmlns/"

/-- The namespaces in effect, by qualifier; the empty qualifier has the default one. -/
abbrev Scope := List (String × String)

namespace Scope

/-- The namespaces that the attributes of an element declare. An attribute `xmlns` declares the
default one, and an attribute `xmlns:q` that of the qualifier `q`, which is declared once. -/
def declare? : Scope → List (QName × String) → Option Scope
  | declared, [] => some declared
  | declared, (name, uri) :: rest =>
    if name.qualifier = "xmlns" then
      if uri = xmlnsUri then none
      else if name.base = "xml" then
        if uri = xmlUri then declare? declared rest else none
      else if uri = xmlUri ∨ (declared.lookup name.base).isSome then none
      else declare? (declared ++ [(name.base, uri)]) rest
    else if name.base = "xmlns" then
      if uri = xmlUri ∨ uri = xmlnsUri then none
      else declare? (declared ++ [("", uri)]) rest
    else declare? declared rest

/-- Whether an attribute declares a namespace. -/
def isDeclaration (name : QName) : Bool :=
  name.qualifier == "xmlns" || name.base == "xmlns"

/-- The namespace of an attribute, which has none unless it is qualified; nothing if its qualifier
is not declared. -/
def attributeUri? (scope : Scope) (name : QName) : Option (Option String) :=
  if name.qualifier = "xml" then some (some xmlUri)
  else if name.qualifier = "" then some none
  else (scope.lookup name.qualifier).map some

/-- Whether the attributes of an element all have declared qualifiers, and no two of them the same
name in the same namespace. `seen` are those before. -/
def distinct (scope : Scope) : List (Option String × String) → List (QName × String) → Bool
  | _, [] => true
  | seen, (name, _) :: rest =>
    match scope.attributeUri? name with
    | none => false
    | some uri => !seen.contains (uri, name.base) && scope.distinct ((uri, name.base) :: seen) rest

/-- Enter an element with the given attributes: the scope inside it, and its attributes without
the declarations. -/
def open? (outer : Scope) (name : QName) (attributes : List (QName × String)) :
    Option (Scope × List (String × String)) :=
  match declare? [] attributes with
  | none => none
  | some declared =>
    let scope := declared ++ outer
    let plain := attributes.filter fun a => !isDeclaration a.1
    if name.qualifier = "xmlns" then none
    else if name.qualifier ≠ "" ∧ (scope.lookup name.qualifier).isNone then none
    else if scope.distinct [] plain then some (scope, plain.map fun a => (a.1.base, a.2))
    else none

end Scope

/-! ### Items -/

/-- What may stand inside an element. -/
inductive Item where
  /-- Character data, a comment, a processing instruction, or a `CDATA` section. -/
  | other
  | openTag (name : QName) (attributes : List (QName × String)) (isEmpty : Bool)
  | closeTag (name : QName)

/-- The attributes of a tag up to its end, and whether the element is empty. Each attribute
follows white space. `fuel` bounds the number of attributes. -/
def tagEnd? : Nat → List Char → Option ((List (QName × String) × Bool) × List Char)
  | 0, _ => none
  | fuel + 1, cs =>
    match skipSpaces cs with
    | '/' :: '>' :: rest => some (([], true), rest)
    | '>' :: rest => some (([], false), rest)
    | rest =>
      if !(cs.head?.any isSpace) then none
      else
        match attribute? rest with
        | none => none
        | some ((name, raw), rest) =>
          match expand? raw, tagEnd? fuel rest with
          | some value, some ((more, isEmpty), rest) =>
            some (((name, String.ofList value) :: more, isEmpty), rest)
          | _, _ => none

/-- An opening tag, from the characters after its `<`. No attribute goes beyond the next `<`. -/
def openTag? (cs : List Char) : Option (Item × List Char) :=
  match qname? cs with
  | none => none
  | some (name, rest) =>
    let size := (rest.takeWhile (· != '<')).length
    (tagEnd? (size + 1) rest).map fun r => (.openTag name r.1.1 r.1.2, r.2)

/-- A closing tag, from the characters after its `</`. -/
def closeTag? (cs : List Char) : Option (Item × List Char) :=
  match qname? cs with
  | none => none
  | some (name, rest) => (after? ">" (skipSpaces rest)).map fun r => (.closeTag name, r)

/-- The next item inside an element. -/
def item? (cs : List Char) : Option (Item × List Char) :=
  if startsWith "<!--" cs then (comment? (cs.drop 4)).map (.other, ·)
  else if startsWith "<![CDATA[" cs then (upTo? "]]>" (cs.drop 9)).map fun r => (.other, r.2)
  else if startsWith "<?" cs then (instruction? cs).map (.other, ·)
  else if startsWith "</" cs then closeTag? (cs.drop 2)
  else if startsWith "<" cs then openTag? (cs.drop 1)
  else (charData? cs).map (.other, ·)

/-! ### Elements -/

/-- An element that is still open, with the elements read inside it so far, the last one first. -/
structure OpenElement where
  name : QName
  attributes : List (String × String)
  scope : Scope
  children : List Element

/-- The element, once it is closed. -/
def OpenElement.close (e : OpenElement) : Element :=
  .mk e.name.base e.attributes e.children.reverse

/-- Read the rest of an element whose tag has been opened, inside the other open ones, until the
outermost one is closed. `fuel` bounds the number of items. -/
def contentWithin : Nat → OpenElement → List OpenElement → List Char →
    Option (Element × List Char)
  | 0, _, _, _ => none
  | _, _, _, [] => none
  | fuel + 1, top, outer, cs =>
    match item? cs with
    | none => none
    | some (.other, rest) => contentWithin fuel top outer rest
    | some (.closeTag name, rest) =>
      if name = top.name then
        match outer with
        | [] => some (top.close, rest)
        | next :: outer =>
          contentWithin fuel { next with children := top.close :: next.children } outer rest
      else none
    | some (.openTag name attributes isEmpty, rest) =>
      match top.scope.open? name attributes with
      | none => none
      | some (scope, attributes) =>
        let inner : OpenElement := ⟨name, attributes, scope, []⟩
        if isEmpty then
          contentWithin fuel { top with children := inner.close :: top.children } outer rest
        else contentWithin fuel inner (top :: outer) rest

/-- The element that starts at an opening tag. -/
def element? (cs : List Char) : Option (Element × List Char) :=
  match openTag? (cs.drop 1) with
  | some (.openTag name attributes isEmpty, rest) =>
    match Scope.open? [] name attributes with
    | none => none
    | some (scope, attributes) =>
      let root : OpenElement := ⟨name, attributes, scope, []⟩
      if isEmpty then some (root.close, rest) else contentWithin (rest.length + 1) root [] rest
  | _ => none

/-! ### Documents -/

/-- What follows the comments, processing instructions and white space outside the root element.
`fuel` bounds their number. -/
def miscWithin : Nat → List Char → Option (List Char)
  | 0, cs => some cs
  | fuel + 1, cs =>
    let cs := skipSpaces cs
    if startsWith "<!--" cs then (comment? (cs.drop 4)).bind (miscWithin fuel)
    else if startsWith "<?" cs then (instruction? cs).bind (miscWithin fuel)
    else some cs

/-- What follows the comments, processing instructions and white space outside the root
element. -/
def misc? (cs : List Char) : Option (List Char) :=
  miscWithin (cs.length + 1) cs

/-- What follows the white space that a part of the declaration needs before the next part. -/
def declarationSpace? (cs : List Char) : Option (List Char) :=
  if skipSpaces cs = cs ∧ ¬startsWith "?>" cs ∧ cs ≠ [] then none else some (skipSpaces cs)

/-- What follows an attribute of the declaration whose name starts as given, if it is there. -/
def declarationPart? (name : String) (cs : List Char) : Option (List Char) :=
  if startsWith name cs then (attribute? cs).map (·.2) else some cs

/-- What follows the XML declaration, from the characters after its `<?xml`. The version is
required, and may be followed by the encoding and by whether the document stands alone. -/
def declaration? (cs : List Char) : Option (List Char) := do
  let cs ← declarationSpace? cs
  if !startsWith "version" cs then none
  let cs ← declarationSpace? (← declarationPart? "version" cs)
  let cs ←
    if startsWith "encoding" cs then declarationPart? "encoding" cs >>= declarationSpace?
    else some cs
  let cs ← declarationPart? "standalone" cs
  after? "?>" (skipSpaces cs)

/-- The text without the mark that may tell its byte order. -/
def dropMark : List Char → List Char
  | c :: rest => if c.toNat = 0xFEFF then rest else c :: rest
  | [] => []

/-- The root element of a document. -/
def parse? (text : String) : Option Element := do
  let cs := dropMark text.toList
  let cs ← if startsWith "<?xml " cs then declaration? (cs.drop 5) else some cs
  let cs ← misc? cs
  if startsWith "<!DOCTYPE" cs then none
  if !startsWith "<" cs then none
  let (root, rest) ← element? cs
  let rest ← misc? rest
  if rest.isEmpty then some root else none

end DllGraph.Xml
