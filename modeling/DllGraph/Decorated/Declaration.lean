import DllGraph.Decorated.Declarator
import DllGraph.Decorated.Reader

/-!
# Declarations

A symbol as a C++ programmer would declare it, without calling conventions and other words of one
compiler.

## Main definitions

* `TypeExpr.declarator`, a type as the text around a name;
* `Symbol.text`, the declaration of a symbol;
* `undecorate?`, the declaration of the symbol with a decorated name.
-/

namespace DllGraph.Decorated

/-- The name of a symbol by itself, given its text as a part of other names. A constructor and a
destructor are named for their class, and a conversion for the type that it results in. -/
def Name.own (text : String) (scopes : List String) (result : Option String) : Name → String
  | constructor => scopes.head?.getD "[invalid]"
  | destructor => (scopes.head?.map ("~" ++ ·)).getD "[invalid]"
  | conversion => (result.map ("operator " ++ ·)).getD text
  | _ => text

/-- The words for how a member is used, before its type. A piece of code that adjusts the object is
marked as one. -/
def memberWords (access : Access) (dispatch : Dispatch) : String :=
  let words := access.word ++ dispatch.word
  match dispatch with
  | .throughAdjustor => "[thunk]: " ++ words
  | _ => words

/-- The words for how a variable is used, before its type. All members are static. -/
def objectWords : Option Access → String
  | some access => access.word ++ "static "
  | none => ""

/-- The class that a table is for, if it is not the only one of its class. -/
def tableSuffix (base : List String) : String :=
  match base with
  | [] => ""
  | name :: scopes => "\x7bfor `" ++ qualified scopes name ++ "'\x7d"

/-- The class that a table of base classes is for, which is always told. -/
def baseTableSuffix (base : List String) : String :=
  match base with
  | [] => "\x7bfor `'\x7d\x7d"
  | name :: scopes => "\x7bfor `" ++ qualified scopes name ++ "'\x7d\x7d"

mutual

/-- The text of a name as a part of a longer one. -/
def Name.text : Name → String
  | .plain text => text
  | .constructor => "ctor"
  | .destructor => "dtor"
  | .conversion => "operatorcast"
  | .typeDescriptor type => type.declarator.text ++ "::`RTTI Type Descriptor'"
  | .template name arguments => name.text ++ angled arguments.texts
  | .block number => "`" ++ toString number ++ "'"
  | .unnamed _ => "`anonymous namespace'"
  | .enclosing symbol => "`" ++ symbol.text ++ "'"

/-- The texts of some names. -/
def Names.texts : Names → List String
  | .nil => []
  | .cons head tail => head.text :: tail.texts

/-- A type as the text around a name. -/
def TypeExpr.declarator : TypeExpr → Declarator
  | .absent | .emptyPack => .simple ""
  | .basic name q => (Declarator.simple name).qualify q.words
  | .tagged tag name scope q =>
    (Declarator.simple (tag ++ " " ++ qualified scope.texts name.text)).qualify q.words
  | .constant value => .simple (toString value)
  | .parameter index => .simple ("`template-parameter" ++ toString index ++ "'")
  | .variadic => .simple "..."
  | .reference kind target q => (target.declarator.refer kind.mark).qualify q.words
  | .array bound element q => (element.declarator.array bound).qualify q.words
  | .function signature => signature.declarator
  | .memberPointer owner scope signature =>
    signature.declarator.refer (qualified scope.texts owner.text ++ "::*")

/-- The texts of some types. An empty pack is not written. -/
def TypeExprs.texts : TypeExprs → List String
  | .nil => []
  | .cons .emptyPack tail => tail.texts
  | .cons head tail => head.declarator.text :: tail.texts

/-- The type of a function as the text around its name. -/
def Signature.declarator : Signature → Declarator
  | .mk _ parameters object .absent => .function none parameters.texts object.words
  | .mk _ parameters object result =>
    .function (some result.declarator) parameters.texts object.words

/-- The text of the type that a function results in. -/
def Signature.resultText : Signature → String
  | .mk _ _ _ result => result.declarator.text

/-- The text of the type that a symbol results in, if it is a function. -/
def Declaration.resultText? : Declaration → Option String
  | .function signature => some signature.resultText
  | .member _ _ signature => some signature.resultText
  | _ => none

/-- The declaration of a name. -/
def Declaration.declare (name : String) : Declaration → String
  | .untyped => name
  | .object access type q =>
    let d := type.declarator.qualify q.words
    objectWords access ++ spaced d.lead ++ name ++ d.tail
  | .function signature =>
    let d := signature.declarator
    d.lead ++ name ++ d.tail
  | .member access dispatch signature =>
    let d := signature.declarator
    memberWords access dispatch ++ d.lead ++ name ++ d.tail
  | .functionTable base q => spaced (followedBy "" q.words) ++ name ++ tableSuffix base.texts
  | .baseTable base q => spaced (followedBy "" q.words) ++ name ++ baseTableSuffix base.texts
  | .slotCall slot _ => "[thunk]: " ++ name ++ "\x7b" ++ toString slot ++ ", \x7bflat\x7d\x7d"

/-- The declaration of a symbol. -/
def Symbol.text : Symbol → String
  | .mk name scope declaration =>
    let scopes := scope.texts
    let own := name.own name.text scopes declaration.resultText?
    declaration.declare (qualified scopes own)

end

/-- The declaration of the symbol with a decorated name, or nothing if the name is not decorated or
its decoration is malformed. -/
def undecorate? (decorated : String) : Option String :=
  (Symbol.ofDecorated? decorated).map Symbol.text

end DllGraph.Decorated
