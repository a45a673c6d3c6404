/-!
# Symbols

The linker knows a C++ symbol by one decorated name, into which the compiler has put the name of
the symbol, the scopes around it and its type. This module is about what such a name says. How it
is decorated is in `DllGraph.Decorated.Reader`, and how it is written in the source of a program is
in `DllGraph.Decorated.Declaration`.

Two types may be written alike and still differ, as function types with different calling
conventions do. The decoration of a name depends on which of the types in it are equal, so all that
tells types apart is kept here.

## Main definitions

* `Name`, one part of a qualified name, and `Names`, several of them;
* `TypeExpr`, a type, and `TypeExprs`, several of them;
* `Signature`, what functions and member functions have in common;
* `Declaration`, what a symbol is, and `Symbol`, a symbol.
-/

namespace DllGraph.Decorated

/-- How the arguments of a function are passed. -/
inductive Convention where
  | cdecl
  | pascal
  | thiscall
  | stdcall
  | fastcall
deriving DecidableEq

/-- The qualifiers of a type. Whether its address is a far one is not written. -/
structure Qualifiers where
  isConst : Bool
  isVolatile : Bool
  isFar : Bool
deriving DecidableEq

namespace Qualifiers

/-- No qualifiers. -/
def empty : Qualifiers := ⟨false, false, false⟩

/-- The qualifiers of either of two lists of them. -/
def union (q r : Qualifiers) : Qualifiers :=
  ⟨q.isConst || r.isConst, q.isVolatile || r.isVolatile, q.isFar || r.isFar⟩

/-- The qualifiers that are written, as words. -/
def words (q : Qualifiers) : List String :=
  (if q.isConst then ["const"] else []) ++ (if q.isVolatile then ["volatile"] else [])

end Qualifiers

/-- The qualifiers of the object that a member function is called on. -/
structure ObjectQualifiers where
  basic : Qualifiers
  isRestrict : Bool
  isUnaligned : Bool
  /-- Whether the object has to be one with a place, such as a variable. -/
  isLvalue : Bool
  /-- Whether the object has to be one without a place, such as the result of a call. -/
  isRvalue : Bool
deriving DecidableEq

namespace ObjectQualifiers

/-- The qualifiers of a function that is called on no object. -/
def empty : ObjectQualifiers := ⟨.empty, false, false, false, false⟩

/-- The qualifiers as words. -/
def words (q : ObjectQualifiers) : List String :=
  q.basic.words ++ (if q.isRestrict then ["__restrict"] else []) ++
    (if q.isUnaligned then ["__unaligned"] else []) ++ (if q.isLvalue then ["&"] else []) ++
    (if q.isRvalue then ["&&"] else [])

end ObjectQualifiers

/-- The types that refer to another one. -/
inductive Reference where
  | pointer
  | lvalue
  | rvalue
deriving DecidableEq

/-- The mark of a type that refers to another one. -/
def Reference.mark : Reference → String
  | pointer => "*"
  | lvalue => "&"
  | rvalue => "&&"

/-- Who may use a member of a class. -/
inductive Access where
  | ofClass
  | ofHeirs
  | ofAll
deriving DecidableEq

/-- The word for who may use a member. -/
def Access.word : Access → String
  | ofClass => "private: "
  | ofHeirs => "protected: "
  | ofAll => "public: "

/-- How a member function is called: on no object, on an object, through the table of the virtual
functions of an object, or through a piece of code that adjusts the object first. -/
inductive Dispatch where
  | unbound
  | onObject
  | throughTable
  | throughAdjustor
deriving DecidableEq

/-- The word for how a member function is called. -/
def Dispatch.word : Dispatch → String
  | unbound => "static "
  | onObject => ""
  | throughTable | throughAdjustor => "virtual "

mutual

/-- One part of a qualified name. -/
inductive Name where
  /-- An identifier, an operator, or something that the compiler has made. -/
  | plain (text : String)
  | constructor
  | destructor
  /-- The operator that converts to the type that it results in. -/
  | conversion
  /-- The description of a type that programs can look at while they run. -/
  | typeDescriptor (type : TypeExpr)
  | template (name : Name) (arguments : TypeExprs)
  /-- A block of a function, by its number. -/
  | block (number : Int)
  /-- A namespace without a name, by what tells it from others. -/
  | unnamed (id : String)
  /-- A function with something inside it. -/
  | enclosing (symbol : Symbol)
deriving DecidableEq

/-- Several names; of scopes, the innermost comes first. -/
inductive Names where
  | nil
  | cons (head : Name) (tail : Names)
deriving DecidableEq

/-- A type, or another argument of a template. -/
inductive TypeExpr where
  /-- The result of a constructor or a destructor. -/
  | absent
  | basic (name : String) (qualifiers : Qualifiers)
  /-- A class or the like, with the word that introduces it. -/
  | tagged (tag : String) (name : Name) (scope : Names) (qualifiers : Qualifiers)
  | constant (value : Int)
  /-- A parameter of a template, by its position. -/
  | parameter (index : Int)
  | emptyPack
  /-- Any more parameters of a function. -/
  | variadic
  | reference (kind : Reference) (target : TypeExpr) (qualifiers : Qualifiers)
  | array (bound : Int) (element : TypeExpr) (qualifiers : Qualifiers)
  | function (signature : Signature)
  | memberPointer (owner : Name) (scope : Names) (signature : Signature)
deriving DecidableEq

/-- Several types. -/
inductive TypeExprs where
  | nil
  | cons (head : TypeExpr) (tail : TypeExprs)
deriving DecidableEq

/-- The type of a function. -/
inductive Signature where
  | mk (convention : Convention) (parameters : TypeExprs) (object : ObjectQualifiers)
      (result : TypeExpr)
deriving DecidableEq

/-- What a symbol is. -/
inductive Declaration where
  | untyped
  /-- A variable, with its access if it is a member of a class. -/
  | object (access : Option Access) (type : TypeExpr) (qualifiers : Qualifiers)
  | function (signature : Signature)
  | member (access : Access) (dispatch : Dispatch) (signature : Signature)
  /-- A table of virtual functions, with the base class that it is for. -/
  | functionTable (base : Names) (qualifiers : Qualifiers)
  /-- A table of virtual base classes, with the base class that it is for. -/
  | baseTable (base : Names) (qualifiers : Qualifiers)
  /-- A piece of code that calls the virtual function at a place of the table. -/
  | slotCall (slot : Int) (convention : Convention)
deriving DecidableEq

/-- A symbol: its name, the scopes around it, and what it is. -/
inductive Symbol where
  | mk (name : Name) (scope : Names) (declaration : Declaration)
deriving DecidableEq

end

/-- Some types with one more at the end. -/
def TypeExprs.concat (types : TypeExprs) (last : TypeExpr) : TypeExprs :=
  match types with
  | nil => cons last nil
  | cons head tail => cons head (tail.concat last)

end DllGraph.Decorated
