/-!
# Lexemes of XML

The smallest parts of an XML text: names, references, quoted values, comments, processing
instructions and character data. A reader of such a part takes the characters from where it starts
and answers what it read together with the characters after it, or nothing if the part is
malformed.
-/

namespace DllGraph.Xml

/-! ### Characters -/

/-- The white space of XML. -/
def isSpace (c : Char) : Bool :=
  c == ' ' || c == '\t' || c == '\n' || c == '\r'

/-- The characters that may stand in an XML text at all. -/
def isXmlChar (c : Char) : Bool :=
  if c.toNat < 0x20 then isSpace c else c.toNat != 0xFFFE && c.toNat != 0xFFFF

/-- The ranges of the characters beyond ASCII that a name may start with. -/
def nameStartRanges : List (Nat × Nat) :=
  [(0xC0, 0xD6), (0xD8, 0xF6), (0xF8, 0x2FF), (0x370, 0x37D), (0x37F, 0x1FFF), (0x200C, 0x200D),
   (0x2070, 0x218F), (0x2C00, 0x2FEF), (0x3001, 0xD7FF), (0xF900, 0xFDCF), (0xFDF0, 0xFFFD),
   (0x10000, 0xEFFFF)]

/-- The characters that a name may start with. -/
def isNameStart (c : Char) : Bool :=
  c.isAlpha || c == ':' || c == '_' ||
    nameStartRanges.any fun r => decide (r.1 ≤ c.toNat) && decide (c.toNat ≤ r.2)

/-- The characters that a name may consist of. -/
def isNameChar (c : Char) : Bool :=
  isNameStart c || c.isDigit || c == '-' || c == '.' || c.toNat == 0xB7 ||
    (decide (0x300 ≤ c.toNat) && decide (c.toNat ≤ 0x36F)) || c.toNat == 0x203F ||
    c.toNat == 0x2040

/-- The characters without the white space that they start with. -/
def skipSpaces (cs : List Char) : List Char :=
  cs.dropWhile isSpace

/-- The characters after a given text, if they start with it. -/
def after? (text : String) (cs : List Char) : Option (List Char) :=
  if text.toList.isPrefixOf cs then some (cs.drop text.length) else none

/-- Whether the characters start with a given text. -/
def startsWith (text : String) (cs : List Char) : Bool :=
  text.toList.isPrefixOf cs

/-- Whether the characters have a given text somewhere. -/
def hasText (text : String) : List Char → Bool
  | [] => text.toList.isEmpty
  | c :: rest => startsWith text (c :: rest) || hasText text rest

/-! ### Names -/

/-- A name with the qualifier that stands before its colon, which may be empty. -/
structure QName where
  qualifier : String
  base : String
deriving DecidableEq

/-- Whether a part of a name starts as it must. -/
def startsName (cs : List Char) : Bool :=
  match cs with
  | [] => false
  | c :: _ => isNameStart c

/-- A character of a name other than the colon. -/
def isPartChar (c : Char) : Bool :=
  c != ':' && isNameChar c

/-- A name that may be qualified, with one colon at most. -/
def qname? (cs : List Char) : Option (QName × List Char) :=
  let first := cs.takeWhile isPartChar
  match cs.dropWhile isPartChar with
  | ':' :: more =>
    let second := more.takeWhile isPartChar
    let rest := more.dropWhile isPartChar
    if rest.head? = some ':' then none
    else if (first.isEmpty || startsName first) && startsName second then
      some (⟨String.ofList first, String.ofList second⟩, rest)
    else none
  | rest => if startsName first then some (⟨"", String.ofList first⟩, rest) else none

/-- A name in which the colon means nothing. -/
def name? (cs : List Char) : Option (String × List Char) :=
  if startsName cs then some (String.ofList (cs.takeWhile isNameChar), cs.dropWhile isNameChar)
  else none

/-! ### References -/

/-- The value of a digit in bases up to sixteen. -/
def digitValue (c : Char) : Nat :=
  if c.isDigit then c.toNat - '0'.toNat
  else if c.isUpper then c.toNat - 'A'.toNat + 10
  else c.toNat - 'a'.toNat + 10

/-- Whether a character is a hexadecimal digit. -/
def isHexDigit (c : Char) : Bool :=
  c.isDigit || (decide ('a' ≤ c) && decide (c ≤ 'f')) || (decide ('A' ≤ c) && decide (c ≤ 'F'))

/-- The character of a number written in digits. A number of more than 32 bits is malformed, one
that is no character stands for U+FFFD, and one that may not stand in XML is refused. -/
def charOfDigits? (base : Nat) (digits : List Char) : Option Char :=
  let n := digits.foldl (fun n c => n * base + digitValue c) 0
  if digits.isEmpty || decide (UInt32.size ≤ n) then none
  else
    let c := if n.isValidChar then Char.ofNat n else Char.ofNat 0xFFFD
    if isXmlChar c then some c else none

/-- The characters that have an entity of their own. -/
def entity? (name : String) : Option Char :=
  if name = "quot" then some '"'
  else if name = "amp" then some '&'
  else if name = "apos" then some '\''
  else if name = "lt" then some '<'
  else if name = "gt" then some '>'
  else none

/-- The character that a reference stands for, from the characters after its ampersand. -/
def reference? (cs : List Char) : Option (Char × List Char) :=
  let read : Option (Option Char × List Char) :=
    match cs with
    | '#' :: 'x' :: digits =>
      some (charOfDigits? 16 (digits.takeWhile isHexDigit), digits.dropWhile isHexDigit)
    | '#' :: digits =>
      some (charOfDigits? 10 (digits.takeWhile Char.isDigit), digits.dropWhile Char.isDigit)
    | _ => (name? cs).map fun n => (entity? n.1, n.2)
  match read with
  | some (some c, ';' :: rest) => some (c, rest)
  | _ => none

/-- The value that the raw characters of an attribute stand for: references replaced, and white
space turned into spaces, with a carriage return and a line feed counting as one. `fuel` bounds
the number of characters. -/
def expandWithin : Nat → List Char → Option (List Char)
  | _, [] => some []
  | 0, _ => none
  | fuel + 1, '&' :: rest =>
    match reference? rest with
    | none => none
    | some (c, rest) => (expandWithin fuel rest).map (c :: ·)
  | fuel + 1, '\r' :: '\n' :: rest => expandWithin fuel ('\n' :: rest)
  | fuel + 1, c :: rest => (expandWithin fuel rest).map ((if isSpace c then ' ' else c) :: ·)

/-- The value that the raw characters of an attribute stand for. -/
def expand? (cs : List Char) : Option (List Char) :=
  expandWithin cs.length cs

/-! ### Delimited parts -/

/-- The characters up to a closing text, and those after it. -/
def upTo? (closing : String) : List Char → Option (List Char × List Char)
  | [] => none
  | c :: rest =>
    if startsWith closing (c :: rest) then some ([], (c :: rest).drop closing.length)
    else if isXmlChar c then (upTo? closing rest).map fun r => (c :: r.1, r.2)
    else none

/-- What follows a comment, from the characters after its opening. A comment has no two hyphens in
a row, and no hyphen right before its closing. -/
def comment? (cs : List Char) : Option (List Char) :=
  match upTo? "-->" cs with
  | none => none
  | some (text, rest) =>
    if hasText "--" text || text.getLast? == some '-' then none else some rest

/-- What follows a processing instruction, from the characters that open it. An XML declaration is
none. -/
def instruction? (cs : List Char) : Option (List Char) :=
  if startsWith "<?xml " cs then none
  else
    match name? (cs.drop 2) with
    | none => none
    | some (_, rest) => (upTo? "?>" (skipSpaces rest)).map (·.2)

/-- The raw characters of a value up to its closing quote, and those after it. -/
def quotedValue? (quote : Char) : List Char → Option (List Char × List Char)
  | [] => none
  | c :: rest =>
    if c = quote then some ([], rest)
    else if c = '<' || !isXmlChar c then none
    else (quotedValue? quote rest).map fun r => (c :: r.1, r.2)

/-- An attribute with the raw characters of its value. -/
def attribute? (cs : List Char) : Option ((QName × List Char) × List Char) :=
  match qname? cs with
  | none => none
  | some (name, rest) =>
    match skipSpaces rest with
    | '=' :: rest =>
      match skipSpaces rest with
      | quote :: rest =>
        if quote = '"' ∨ quote = '\'' then
          (quotedValue? quote rest).map fun r => ((name, r.1), r.2)
        else none
      | [] => none
    | _ => none

/-- What follows character data. It may not have the text that closes a `CDATA` section, and its
references must stand for characters. -/
def charData? (cs : List Char) : Option (List Char) :=
  let text := cs.takeWhile (· != '<')
  if text.all isXmlChar && !hasText "]]>" text && (expand? text).isSome then
    some (cs.dropWhile (· != '<'))
  else none

end DllGraph.Xml
