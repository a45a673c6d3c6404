/-!
# Declarators

How the type of a symbol is written around its name. In C++ a type is not one piece of text: of
`int (*x)[3]`, some stands before the name and some after it. A declarator holds the two pieces.

A blank separates two words, and a word from a star; whether the last character of what comes
before is the end of a word decides. Digits and underscores do not count as such.

## Main definitions

* `Declarator`, a type as the text around a name;
* `Declarator.refer`, `Declarator.array` and `Declarator.function`, types made of others.
-/

namespace DllGraph.Decorated

/-- The text with a space at its end where a word or a star is to follow a word or the arguments of
a template. -/
def spaced (text : String) : String :=
  match text.toList.getLast? with
  | none => text
  | some c => if c.isAlpha || c == '>' then text ++ " " else text

/-- The text with some words after it. -/
def followedBy (text : String) (words : List String) : String :=
  words.foldl (fun text word => spaced text ++ word) text

/-- The text of a list of parts. -/
def listed (parts : List String) : String :=
  ", ".intercalate parts

/-- The arguments of a template between angle brackets, which must not touch those of an argument
at the end. -/
def angled (arguments : List String) : String :=
  let inner := listed arguments
  "<" ++ inner ++ (if inner.toList.getLast? = some '>' then " >" else ">")

/-- The text of the last of some names with the scopes around it, the innermost of which comes
first. -/
def qualified (scopes : List String) (name : String) : String :=
  "::".intercalate (scopes.reverse ++ [name])

/-- A type as the text around a name. -/
structure Declarator where
  /-- What comes before the name. -/
  lead : String
  /-- What comes after the name. -/
  tail : String
  /-- Whether the type is that of an array or a function, which binds tighter than a star. -/
  isCompound : Bool

namespace Declarator

/-- A type that is written before the name only. -/
def simple (text : String) : Declarator :=
  ⟨text, "", false⟩

/-- The text of the type alone. -/
def text (d : Declarator) : String :=
  d.lead ++ d.tail

/-- The type with qualifiers of its own. -/
def qualify (d : Declarator) (words : List String) : Declarator :=
  { d with lead := followedBy d.lead words }

/-- A type that refers to another one by a mark such as a star. -/
def refer (mark : String) (target : Declarator) : Declarator :=
  if target.isCompound then ⟨spaced target.lead ++ "(" ++ mark, ")" ++ target.tail, false⟩
  else ⟨spaced target.lead ++ mark, target.tail, false⟩

/-- An array of elements. -/
def array (bound : Int) (element : Declarator) : Declarator :=
  ⟨element.lead, "[" ++ toString bound ++ "]" ++ element.tail, true⟩

/-- A function, with the words for the object that it is called on. A function without a result,
such as a constructor, has nothing before its name. -/
def function (result : Option Declarator) (parameters object : List String) : Declarator :=
  let rest := "(" ++ listed parameters ++ ")" ++ String.join (object.map (" " ++ ·))
  match result with
  | some result => ⟨result.lead ++ " ", rest ++ result.tail, true⟩
  | none => ⟨"", rest, true⟩

end Declarator

end DllGraph.Decorated
