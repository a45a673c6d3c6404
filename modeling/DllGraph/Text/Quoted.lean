import DllGraph.Text.Hex
import DllGraph.Text.PrintableTable

/-!
# Quoted Text

Names are quoted in messages so that every character of them can be seen: quotes and backslashes
take a backslash, the common controls their letter, and whatever has no glyph of its own, or would
attach to the character before it, is written as its code point.
-/

namespace DllGraph.Text

/-- Whether a character has a glyph of its own. -/
def isPrintable (c : Char) : Bool :=
  decide (0x20 ≤ c.toNat) && !unprintableSet.contains c

/-- A code point between braces, such as `\u{7f}`. -/
def quotedCode (c : Char) : List Char :=
  ['\\', 'u', '{'] ++ hexDigits c.toNat ++ ['}']

/-- The quoted form of a character. -/
def quotedChar (c : Char) : List Char :=
  if c.toNat = 0 then ['\\', '0']
  else if c = '\t' then ['\\', 't']
  else if c = '\r' then ['\\', 'r']
  else if c = '\n' then ['\\', 'n']
  else if c = '\\' ∨ c = '"' then ['\\', c]
  else if isPrintable c && !graphemeExtendSet.contains c then [c]
  else quotedCode c

/-- A text between quotes, with every character visible. -/
def quoted (s : String) : String :=
  String.ofList ('"' :: s.toList.flatMap quotedChar ++ ['"'])

end DllGraph.Text
