/-!
# XML Documents

A document as its elements: the name of each without its qualifier, its attributes, and the
elements inside it. Text, comments and processing instructions are not part of it, and neither are
the namespaces, whose declarations only decide whether a document is well-formed.
-/

namespace DllGraph.Xml

/-- An element of a document. -/
inductive Element where
  | mk (name : String) (attributes : List (String × String)) (children : List Element)

namespace Element

/-- The name of an element, without its qualifier. -/
def name : Element → String
  | mk name _ _ => name

/-- The attributes of an element, with their names without qualifiers. -/
def attributes : Element → List (String × String)
  | mk _ attributes _ => attributes

/-- The elements directly inside an element. -/
def children : Element → List Element
  | mk _ _ children => children

/-- The value of the first attribute of a name, whatever its qualifier. -/
def attribute? (e : Element) (name : String) : Option String :=
  e.attributes.lookup name

mutual

/-- An element and everything inside it, in document order, each with the name of the element
around it. -/
def placed (parent : Option String) : Element → List (Option String × Element)
  | mk name attributes children =>
    (parent, mk name attributes children) :: placedAll (some name) children

/-- The elements of a list and everything inside them, in document order, each with the name of
the element around it. -/
def placedAll (parent : Option String) : List Element → List (Option String × Element)
  | [] => []
  | e :: rest => e.placed parent ++ placedAll parent rest

end

/-- The elements of a name, in document order. -/
def named (root : Element) (name : String) : List Element :=
  ((root.placed none).filter (·.2.name == name)).map (·.2)

/-- The elements of a name that lie directly inside an element of another name, in document
order. -/
def namedInside (root : Element) (parent name : String) : List Element :=
  ((root.placed none).filter fun p => p.1 == some parent && p.2.name == name).map (·.2)

end Element

end DllGraph.Xml
