import DllGraph.Decorated.Symbol

/-!
# Reading Decorated Names

This module reads a symbol from its decorated name: a question mark, followed by the name of the
symbol, the scopes around it, and its type. Names and types that occur again are written as a digit,
the position of the first occurrence, so a reader remembers both as it goes along.

Types nest without bound. Every reader of a nested part has one step fewer to go than the reader
that called it, and the steps that are needed are bounded by the length of the decorated name.

## Main definitions

* `Reader`, a reader of some part; it fails on a name that is not well-formed;
* `readName`, `readScope`, the name of a symbol and the scopes around it;
* `readType`, a type; `readSignature`, the type of a function from its calling convention on;
* `readSymbol`, a symbol; `Symbol.ofDecorated?`, the same from a text.
-/

namespace DllGraph.Decorated

/-- What remains to be read, and what has been met so far that may be referred to again. -/
structure ReaderState where
  rest : List Char
  names : List Name
  types : List TypeExpr

/-- A reader of some part of a decorated name. -/
abbrev Reader := StateT ReaderState Option

/-- The next character. -/
def next : Reader Char := do
  match (← get).rest with
  | [] => failure
  | c :: rest =>
    modify ({ · with rest })
    return c

/-- Whether a text comes next; it is not skipped. -/
def follows (text : String) : Reader Bool := do
  return text.toList.isPrefixOf (← get).rest

/-- Skip a text if it comes next, and tell whether it did. -/
def skip? (text : String) : Reader Bool := do
  if ← follows text then
    modify fun s => { s with rest := s.rest.drop text.length }
    return true
  else return false

/-- Skip a text that has to come next. -/
def skip (text : String) : Reader Unit := do
  if ← skip? text then return () else failure

/-- Skip all that remains. -/
def skipRest : Reader Unit :=
  modify ({ · with rest := [] })

/-- What a table has for the next character, which has to be in it. -/
def lookUpNext {α : Type} (table : List (Char × α)) : Reader α := do
  match table.lookup (← next) with
  | some a => return a
  | none => failure

/-- The digit that comes next, if one does. -/
def digit? : Reader (Option Nat) := do
  match (← get).rest with
  | c :: rest =>
    if c.isDigit then
      modify ({ · with rest })
      return some (c.toNat - '0'.toNat)
    else return none
  | [] => return none

/-- How many names, and how many types, can be referred to by a digit. -/
def maxRemembered : Nat := 10

/-- Remember something new, as long as there is a digit for it. -/
def remembered {α : Type} [DecidableEq α] (a : α) (as : List α) : List α :=
  if as.length < maxRemembered ∧ a ∉ as then as ++ [a] else as

/-- Remember a name. -/
def rememberName (name : Name) : Reader Unit :=
  modify fun s => { s with names := remembered name s.names }

/-- Remember a type. -/
def rememberType (type : TypeExpr) : Reader Unit :=
  modify fun s => { s with types := remembered type s.types }

/-- The name met before that a digit refers to. -/
def nameAt (n : Nat) : Reader Name := do
  match (← get).names[n]? with
  | some name => return name
  | none => failure

/-- The type met before that a digit refers to. -/
def typeAt (n : Nat) : Reader TypeExpr := do
  match (← get).types[n]? with
  | some type => return type
  | none => failure

/-! ### Numbers and identifiers -/

/-- The value of hexadecimal digits that are written with the letters from `A` to `P`. -/
def lettersValue (letters : List Char) : Nat :=
  letters.foldl (fun n c => n * 16 + (c.toNat - 'A'.toNat)) 0

/-- How many numbers there are. The upper half of them stands for the negative ones. -/
def numberCount : Nat := UInt32.size

/-- A number: one digit for the numbers from one to ten, and else letters up to an `@`. -/
def readNumber : Reader Int := do
  let isNegative ← skip? "?"
  let size ← do
    match ← digit? with
    | some n => pure (n + 1)
    | none =>
      let letters := (← get).rest.takeWhile fun c => decide ('A' ≤ c) && decide (c ≤ 'P')
      modify fun s => { s with rest := s.rest.drop letters.length }
      skip "@"
      pure (lettersValue letters)
  return (if isNegative then -(size : Int) else size).bmod numberCount

/-- A text that ends at an `@`. It may be empty. -/
def readText : Reader String := do
  let s ← get
  let text := s.rest.takeWhile (· != '@')
  set { s with rest := s.rest.drop text.length }
  skip "@"
  return String.ofList text

/-- An identifier, which is remembered. -/
def readIdentifier : Reader Name := do
  let name := Name.plain (← readText)
  rememberName name
  return name

/-! ### Operators -/

/-- The operators by their letters. -/
def operators : List (Char × Name) := [
  ('0', .constructor), ('1', .destructor), ('2', .plain "operator new"),
  ('3', .plain "operator delete"), ('4', .plain "operator="), ('5', .plain "operator>>"),
  ('6', .plain "operator<<"), ('7', .plain "operator!"), ('8', .plain "operator=="),
  ('9', .plain "operator!="), ('A', .plain "operator[]"), ('B', .conversion),
  ('C', .plain "operator->"), ('D', .plain "operator*"), ('E', .plain "operator++"),
  ('F', .plain "operator--"), ('G', .plain "operator-"), ('H', .plain "operator+"),
  ('I', .plain "operator&"), ('J', .plain "operator->*"), ('K', .plain "operator/"),
  ('L', .plain "operator%"), ('M', .plain "operator<"), ('N', .plain "operator<="),
  ('O', .plain "operator>"), ('P', .plain "operator>="), ('Q', .plain "operator,"),
  ('R', .plain "operator()"), ('S', .plain "operator~"), ('T', .plain "operator^"),
  ('U', .plain "operator|"), ('V', .plain "operator&&"), ('W', .plain "operator||"),
  ('X', .plain "operator*="), ('Y', .plain "operator+="), ('Z', .plain "operator-=")]

/-- The operators, and what a compiler makes, by the letters after an underscore. -/
def moreOperators : List (Char × Name) := [
  ('0', .plain "operator/="), ('1', .plain "operator%="), ('2', .plain "operator>>="),
  ('3', .plain "operator<<="), ('4', .plain "operator&="), ('5', .plain "operator|="),
  ('6', .plain "operator^="), ('7', .plain "`vftable'"), ('8', .plain "`vbtable'"),
  ('9', .plain "`vcall'"), ('A', .plain "`typeof'"), ('B', .plain "`local static guard'"),
  ('C', .plain "`string'"), ('D', .plain "`vbase destructor'"),
  ('E', .plain "`vector deleting destructor'"), ('F', .plain "`default constructor closure'"),
  ('G', .plain "`scalar deleting destructor'"), ('H', .plain "`vector constructor iterator'"),
  ('I', .plain "`vector destructor iterator'"),
  ('J', .plain "`vector vbase constructor iterator'"),
  ('K', .plain "`virtual displacement map'"), ('L', .plain "`eh vector constructor iterator'"),
  ('M', .plain "`eh vector destructor iterator'"),
  ('N', .plain "`eh vector vbase constructor iterator'"),
  ('O', .plain "`copy constructor closure'"), ('S', .plain "`local vftable'"),
  ('T', .plain "`local vftable constructor closure'"), ('U', .plain "operator new[]"),
  ('V', .plain "operator delete[]"), ('X', .plain "`placement delete closure'"),
  ('Y', .plain "`placement delete[] closure'")]

/-- What a compiler makes, by the letters after two underscores. -/
def hiddenFunctions : List (Char × Name) := [
  ('A', .plain "`managed vector constructor iterator'"),
  ('B', .plain "`managed vector destructor iterator'"),
  ('C', .plain "`eh vector copy constructor iterator'"),
  ('D', .plain "`eh vector vbase copy constructor iterator'"),
  ('E', .plain "`dynamic initializer'"), ('F', .plain "`dynamic atexit destructor'"),
  ('G', .plain "`vector copy constructor iterator'"),
  ('H', .plain "`vector vbase copy constructor iterator'"),
  ('I', .plain "`managed vector vbase copy constructor iterator'"),
  ('J', .plain "`local static thread guard'")]

/-- The name of a string literal. Its decoration goes on with the text of it. -/
def stringLiteral : Name := .plain "`string'"

/-! ### Qualifiers and conventions -/

/-- The qualifiers by their letters. -/
def qualifierLetters : List (Char × Qualifiers) := [
  ('A', ⟨false, false, false⟩), ('B', ⟨true, false, false⟩), ('C', ⟨false, true, false⟩),
  ('D', ⟨true, true, false⟩)]

/-- The qualifiers of something with an address by their letters. -/
def placeLetters : List (Char × Qualifiers) :=
  qualifierLetters ++ [
    ('E', ⟨false, false, true⟩), ('F', ⟨true, false, true⟩), ('G', ⟨false, true, true⟩),
    ('H', ⟨true, true, true⟩)]

/-- The calling conventions by their letters. -/
def conventionLetters : List (Char × Convention) := [
  ('A', .cdecl), ('B', .cdecl), ('C', .pascal), ('E', .thiscall), ('G', .stdcall),
  ('I', .fastcall)]

/-- The qualifiers of something with an address. Whether the address has 64 bits comes first and
does not matter. -/
def readPlaceQualifiers : Reader Qualifiers := do
  discard (skip? "E")
  lookUpNext placeLetters

/-- The qualifiers of a result, which have a mark of their own. -/
def readResultQualifiers : Reader Qualifiers := do
  if ← skip? "?" then lookUpNext qualifierLetters else return .empty

/-- The qualifiers of the object that a member function is called on. -/
def readObjectQualifiers : Reader ObjectQualifiers := do
  discard (skip? "E")
  let isRestrict ← skip? "I"
  let isUnaligned ← skip? "F"
  let isLvalue ← skip? "G"
  let isRvalue ← skip? "H"
  let basic ← lookUpNext qualifierLetters
  return { basic, isRestrict, isUnaligned, isLvalue, isRvalue }

/-! ### Types -/

/-- The types that are written as one letter. -/
def basicTypes : List (Char × String) := [
  ('C', "signed char"), ('D', "char"), ('E', "unsigned char"), ('F', "short"),
  ('G', "unsigned short"), ('H', "int"), ('I', "unsigned int"), ('J', "long"),
  ('K', "unsigned long"), ('M', "float"), ('N', "double"), ('O', "long double"), ('X', "void")]

/-- The types that are written as a letter after an underscore. -/
def moreTypes : List (Char × String) := [
  ('J', "__int64"), ('K', "unsigned __int64"), ('L', "__int128"), ('M', "unsigned __int128"),
  ('N', "bool"), ('Q', "char8_t"), ('S', "char16_t"), ('U', "char32_t"), ('W', "wchar_t")]

/-- The words that introduce the name of a type. -/
def taggedTypes : List (Char × String) :=
  [('T', "union"), ('U', "struct"), ('V', "class")]

/-- The types that refer to another one, with their own qualifiers. -/
def referringTypes : List (Char × (Reference × Qualifiers)) := [
  ('A', (.lvalue, .empty)), ('B', (.lvalue, ⟨false, true, false⟩)), ('P', (.pointer, .empty)),
  ('Q', (.pointer, ⟨true, false, false⟩)), ('R', (.pointer, ⟨false, true, false⟩)),
  ('S', (.pointer, ⟨true, true, false⟩))]

/-- The marks of an empty pack of arguments. -/
def emptyPackMarks : List String :=
  ["$$$V", "$$V", "$$Z", "$S"]

/-- Skip the first of some texts that comes next, and tell whether one did. -/
def skipAny? : List String → Reader Bool
  | [] => return false
  | text :: texts => do
    if ← skip? text then return true else skipAny? texts

/-- The member functions by their letters: who may use them, and how they are called. -/
def memberFunctions : List (Char × (Access × Dispatch)) := [
  ('A', (.ofClass, .onObject)), ('B', (.ofClass, .onObject)), ('C', (.ofClass, .unbound)),
  ('D', (.ofClass, .unbound)), ('E', (.ofClass, .throughTable)),
  ('F', (.ofClass, .throughTable)), ('G', (.ofClass, .throughAdjustor)),
  ('H', (.ofClass, .throughAdjustor)), ('I', (.ofHeirs, .onObject)), ('J', (.ofHeirs, .onObject)),
  ('K', (.ofHeirs, .unbound)), ('L', (.ofHeirs, .unbound)), ('M', (.ofHeirs, .throughTable)),
  ('N', (.ofHeirs, .throughTable)), ('O', (.ofHeirs, .throughAdjustor)),
  ('P', (.ofHeirs, .throughAdjustor)), ('Q', (.ofAll, .onObject)), ('R', (.ofAll, .onObject)),
  ('S', (.ofAll, .unbound)), ('T', (.ofAll, .unbound)), ('U', (.ofAll, .throughTable)),
  ('V', (.ofAll, .throughTable)), ('W', (.ofAll, .throughAdjustor)),
  ('X', (.ofAll, .throughAdjustor))]

/-- The member functions whose object is found by two numbers, by their digits. -/
def displacedFunctions : List (Char × Access) := [
  ('0', .ofClass), ('1', .ofClass), ('2', .ofHeirs), ('3', .ofHeirs), ('4', .ofAll), ('5', .ofAll)]

/-- The variables by their digits: who may use them if they are members of a class. -/
def variableDigits : List (Char × Option Access) := [
  ('0', some .ofClass), ('1', some .ofHeirs), ('2', some .ofAll), ('3', none), ('4', none)]

/-- What follows the elements of an array that has several dimensions, the outermost first. -/
def nestArray (bounds : List Int) (element : TypeExpr) (q : Qualifiers) : TypeExpr :=
  bounds.foldr (fun bound type => .array bound type q) element

/-- The bounds of some dimensions. -/
def readBounds : Nat → Reader (List Int)
  | 0 => return []
  | n + 1 => do
    let bound ← readNumber
    return bound :: (← readBounds n)

mutual

/-- The name of a symbol or a class. It is remembered if it is an identifier, or a template of
classes. -/
def readName : Nat → Bool → Reader Name
  | 0, _ => failure
  | fuel + 1, isClass => do
    match ← digit? with
    | some n => nameAt n
    | none =>
      if ← skip? "?$" then
        let name ← readTemplate fuel
        if isClass then rememberName name
        return name
      else if ← skip? "?" then readOperator fuel
      else readIdentifier

/-- An operator, or something that a compiler makes, after the mark of a special name. -/
def readOperator : Nat → Reader Name
  | 0 => failure
  | fuel + 1 => do
    if ← skip? "_R" then readTypeInformation fuel
    else if ← skip? "__" then lookUpNext hiddenFunctions
    else if ← skip? "_" then lookUpNext moreOperators
    else lookUpNext operators

/-- The name of what programs can look at while they run. -/
def readTypeInformation : Nat → Reader Name
  | 0 => failure
  | fuel + 1 => do
    match ← next with
    | '0' =>
      let q ← readResultQualifiers
      return .typeDescriptor (← readType fuel q)
    | '1' =>
      let places ← readBounds 4
      let text := ", ".intercalate (places.map toString)
      return .plain ("`RTTI Base Class Descriptor at (" ++ text ++ ")'")
    | '2' => return .plain "`RTTI Base Class Array'"
    | '3' => return .plain "`RTTI Class Hierarchy Descriptor'"
    | '4' => return .plain "`RTTI Complete Object Locator'"
    | _ => failure

/-- The name and the arguments of a template, whose digits refer to its own parts only. -/
def readTemplate : Nat → Reader Name
  | 0 => failure
  | fuel + 1 => do
    let outer ← get
    set { outer with names := [], types := [] }
    let name ← readName fuel true
    let arguments ← readTypes fuel
    modify ({ · with names := outer.names, types := outer.types })
    skip "@"
    return .template name arguments

/-- The scopes around a name, the innermost first. -/
def readScope : Nat → Reader Names
  | 0 => failure
  | fuel + 1 => do
    if ← skip? "@" then return .nil
    else
      let first ← readScopeName fuel
      return .cons first (← readScope fuel)

/-- The name of a scope: of a class, or of a namespace, which may have none; the number of a block;
or a whole symbol. -/
def readScopeName : Nat → Reader Name
  | 0 => failure
  | fuel + 1 => do
    match ← digit? with
    | some n => nameAt n
    | none =>
      if ← skip? "?$" then
        let name ← readTemplate fuel
        rememberName name
        return name
      else if ← skip? "?A" then
        let name := Name.unnamed (← readText)
        rememberName name
        return name
      else if ← follows "??" then
        skip "?"
        return .enclosing (← readSymbol fuel)
      else if ← skip? "?" then return .block (← readNumber)
      else readIdentifier

/-- A class or the like after the letter for its tag. -/
def readTagged : Nat → String → Qualifiers → Reader TypeExpr
  | 0, _, _ => failure
  | fuel + 1, tag, q => do
    let name ← readName fuel true
    return .tagged tag name (← readScope fuel) q

/-- A type, which has the given qualifiers unless it has some of its own. -/
def readType : Nat → Qualifiers → Reader TypeExpr
  | 0, _ => failure
  | fuel + 1, q => do
    if ← skip? "W4" then readTagged fuel "enum" q
    else if ← skip? "A6" then return .reference .lvalue (.function (← readFunction fuel)) q
    else if ← skip? "P6" then return .reference .pointer (.function (← readFunction fuel)) q
    else if ← skip? "Q6" then
      return .reference .pointer (.function (← readFunction fuel)) (q.union ⟨true, false, false⟩)
    else if ← skip? "P8" then
      let owner ← readName fuel true
      let scope ← readScope fuel
      return .memberPointer owner scope (← readMemberFunction fuel (← readObjectQualifiers))
    else if ← skipAny? emptyPackMarks then return .emptyPack
    else if ← skip? "$$Q" then return .reference .rvalue (← readPlace fuel) q
    else if ← skip? "$$A6" then return .function (← readFunction fuel)
    else if ← skip? "$$C" then readType fuel (← lookUpNext qualifierLetters)
    else if ← skip? "$$B" then readType fuel q
    else if ← skip? "$$T" then return .basic "std::nullptr_t" q
    else if ← skip? "$0" then return .constant (← readNumber)
    else if ← skip? "$D" then return .parameter (← readNumber)
    else if ← skip? "?" then return .parameter (-(← readNumber))
    else if ← skip? "Y" then readArray fuel
    else if ← skip? "_" then return .basic (← lookUpNext moreTypes) q
    else
      let c ← next
      match basicTypes.lookup c, taggedTypes.lookup c, referringTypes.lookup c with
      | some name, _, _ => return .basic name q
      | _, some tag, _ => readTagged fuel tag q
      | _, _, some (kind, own) => return .reference kind (← readPlace fuel) (q.union own)
      | _, _, _ => failure

/-- The type of something with an address. -/
def readPlace : Nat → Reader TypeExpr
  | 0 => failure
  | fuel + 1 => do
    let q ← readPlaceQualifiers
    readType fuel q

/-- The type of an array after its letter. Its qualifiers are those of every dimension. -/
def readArray : Nat → Reader TypeExpr
  | 0 => failure
  | fuel + 1 => do
    let dimensions ← readNumber
    if dimensions ≤ 0 then failure
    let bounds ← readBounds dimensions.toNat
    let q ← do if ← skip? "$$C" then lookUpNext qualifierLetters else pure Qualifiers.empty
    return nestArray bounds (← readType fuel .empty) q

/-- Some types up to the mark of their end. A digit refers to a type met before. A type of one
letter is not worth remembering. -/
def readTypes : Nat → Reader TypeExprs
  | 0 => failure
  | fuel + 1 => do
    if (← follows "@") || (← follows "Z") || (← get).rest.isEmpty then return .nil
    else
      match ← digit? with
      | some n =>
        let type ← typeAt n
        return .cons type (← readTypes fuel)
      | none =>
        let before := (← get).rest.length
        let type ← readType fuel .empty
        if 1 < before - (← get).rest.length then rememberType type
        return .cons type (← readTypes fuel)

/-- The parameters of a function, and what it may throw, which is always anything. -/
def readParameters : Nat → Reader TypeExprs
  | 0 => failure
  | fuel + 1 => do
    if ← skip? "X" then
      skip "Z"
      return .cons (.basic "void" .empty) .nil
    else
      let parameters ← readTypes fuel
      let isVariadic ← skip? "Z"
      unless isVariadic do skip "@"
      skip "Z"
      return if isVariadic then parameters.concat .variadic else parameters

/-- The type of a function from its calling convention on. -/
def readFunction : Nat → Reader Signature
  | 0 => failure
  | fuel + 1 => do
    let convention ← lookUpNext conventionLetters
    let q ← readResultQualifiers
    let result ← readType fuel q
    return .mk convention (← readParameters fuel) .empty result

/-- The type of a member function from its calling convention on. Constructors and destructors have
no result. -/
def readMemberFunction : Nat → ObjectQualifiers → Reader Signature
  | 0, _ => failure
  | fuel + 1, object => do
    let convention ← lookUpNext conventionLetters
    let q ← readResultQualifiers
    let result ← do if ← skip? "@" then pure TypeExpr.absent else readType fuel q
    return .mk convention (← readParameters fuel) object result

/-- What a symbol is, after its name and scopes. A name that ends here is the name of something
without a type. -/
def readDeclaration : Nat → Reader Declaration
  | 0 => failure
  | fuel + 1 => do
    if (← get).rest.isEmpty then return .untyped
    else if (← skip? "8") || (← skip? "9") then return .untyped
    else if ← skip? "6" then
      let q ← readPlaceQualifiers
      return .functionTable (← readScope fuel) q
    else if ← skip? "7" then
      let q ← readPlaceQualifiers
      return .baseTable (← readScope fuel) q
    else if ← skip? "Y" then return .function (← readFunction fuel)
    else if ← skip? "$B" then
      let slot ← readNumber
      skip "A"
      return .slotCall slot (← lookUpNext conventionLetters)
    else if ← skip? "$" then
      let access ← lookUpNext displacedFunctions
      discard (readBounds 2)
      readMember fuel access .throughAdjustor
    else
      let c ← next
      match variableDigits.lookup c, memberFunctions.lookup c with
      | some access, _ =>
        let type ← readType fuel .empty
        return .object access type (← readPlaceQualifiers)
      | _, some (access, dispatch) =>
        if dispatch = .throughAdjustor then discard readNumber
        readMember fuel access dispatch
      | _, _ => failure

/-- A member function after its letter and what tells how its object is found. -/
def readMember : Nat → Access → Dispatch → Reader Declaration
  | 0, _, _ => failure
  | fuel + 1, access, dispatch => do
    let object ← match dispatch with
      | .unbound => pure ObjectQualifiers.empty
      | _ => readObjectQualifiers
    return .member access dispatch (← readMemberFunction fuel object)

/-- A symbol. A name that is too long is replaced by a digest, which stands for itself. -/
def readSymbol : Nat → Reader Symbol
  | 0 => failure
  | fuel + 1 => do
    skip "?"
    if ← skip? "$" then return .mk (← readTemplate fuel) .nil .untyped
    else if ← skip? "?@" then
      let digest ← readText
      return .mk (.plain ("??@" ++ digest ++ "@")) .nil .untyped
    else
      let name ← readName fuel false
      if name = stringLiteral then
        skipRest
        return .mk name .nil .untyped
      else
        let scope ← readScope fuel
        return .mk name scope (← readDeclaration fuel)

end

/-- The symbol with a decorated name, or nothing if the name is not decorated or its decoration is
malformed. What follows a complete decoration does not matter. -/
def Symbol.ofDecorated? (decorated : String) : Option Symbol :=
  let cs := decorated.toList
  ((readSymbol (8 * cs.length + 8)).run ⟨cs, [], []⟩).map (·.1)

end DllGraph.Decorated
