/-!
# JSON Values

The results of an analysis as JSON. Numbers are natural, since sizes, addresses and positions are,
and the members of an object keep the order in which they are listed. A value is written either
without any space (`Json.compact`) or over several lines with an indentation of two spaces
(`Json.pretty`).
-/

namespace DllGraph

/-- A JSON value. -/
inductive Json where
  | null
  | bool (value : Bool)
  | num (value : Nat)
  | str (value : String)
  | arr (items : List Json)
  | obj (members : List (String × Json))

namespace Json

/-- The value of something that may be missing, which is written `null` then. -/
def ofOption {α : Type} (encode : α → Json) : Option α → Json
  | some a => encode a
  | none => null

/-- The array of the values of a list. -/
def ofList {α : Type} (encode : α → Json) (items : List α) : Json :=
  arr (items.map encode)

/-! ### Strings -/

/-- The escape of a character inside a string. The characters that need one are the quote, the
backslash and the controls. -/
def escapeChar (c : Char) : List Char :=
  if c = '"' then ['\\', '"']
  else if c = '\\' then ['\\', '\\']
  else if c = '\n' then ['\\', 'n']
  else if c = '\r' then ['\\', 'r']
  else if c = '\t' then ['\\', 't']
  else if c.toNat = 8 then ['\\', 'b']
  else if c.toNat = 12 then ['\\', 'f']
  else if c.toNat < 0x20 then
    ['\\', 'u', '0', '0', Nat.digitChar (c.toNat / 16), Nat.digitChar (c.toNat % 16)]
  else [c]

/-- A string between quotes, with its escapes. -/
def quote (s : String) : String :=
  String.ofList ('"' :: s.toList.flatMap escapeChar ++ ['"'])

/-! ### Without space -/

mutual

/-- A value without any space, after the text that precedes it. -/
def writeCompact (out : String) : Json → String
  | null => out ++ "null"
  | bool true => out ++ "true"
  | bool false => out ++ "false"
  | num n => out ++ toString n
  | str s => out ++ quote s
  | arr items => writeItems (out ++ "[") "" items ++ "]"
  | obj members => writeMembers (out ++ "\x7b") "" members ++ "\x7d"

/-- The items of an array, each after a separator. -/
def writeItems (out separator : String) : List Json → String
  | [] => out
  | item :: rest => writeItems (writeCompact (out ++ separator) item) "," rest

/-- The members of an object, each after a separator. -/
def writeMembers (out separator : String) : List (String × Json) → String
  | [] => out
  | (key, value) :: rest =>
    writeMembers (writeCompact (out ++ separator ++ quote key ++ ":") value) "," rest

end

/-- The text of a value without any space. -/
def compact (j : Json) : String :=
  writeCompact "" j

/-! ### With indentation -/

/-- A line break and the indentation of a level. -/
def newline (level : Nat) : String :=
  String.ofList ('\n' :: List.replicate (2 * level) ' ')

mutual

/-- A value at a level of indentation, after the text that precedes it. -/
def writePretty (level : Nat) (out : String) : Json → String
  | null => out ++ "null"
  | bool true => out ++ "true"
  | bool false => out ++ "false"
  | num n => out ++ toString n
  | str s => out ++ quote s
  | arr [] => out ++ "[]"
  | arr (item :: rest) =>
    prettyItems (level + 1) (writePretty (level + 1) (out ++ "[" ++ newline (level + 1)) item) rest
      ++ newline level ++ "]"
  | obj [] => out ++ "\x7b\x7d"
  | obj ((key, value) :: rest) =>
    prettyMembers (level + 1)
      (writePretty (level + 1) (out ++ "\x7b" ++ newline (level + 1) ++ quote key ++ ": ") value)
      rest ++ newline level ++ "\x7d"

/-- The items of an array after the first one, each on a line of its own. -/
def prettyItems (level : Nat) (out : String) : List Json → String
  | [] => out
  | item :: rest => prettyItems level (writePretty level (out ++ "," ++ newline level) item) rest

/-- The members of an object after the first one, each on a line of its own. -/
def prettyMembers (level : Nat) (out : String) : List (String × Json) → String
  | [] => out
  | (key, value) :: rest =>
    prettyMembers level
      (writePretty level (out ++ "," ++ newline level ++ quote key ++ ": ") value) rest

end

/-- The text of a value over several lines. -/
def pretty (j : Json) : String :=
  writePretty 0 "" j

end Json

end DllGraph
