/-!
# White Space, Trimming and Lines

Lists that people edit by hand (known DLLs, search paths) are read line by line, with the white
space around each line dropped. White space is the Unicode property `White_Space`, and a line ends
at a line feed, together with a carriage return right before it.
-/

namespace DllGraph.Text

/-- The characters with the property `White_Space`. -/
def isBlank (c : Char) : Bool :=
  let n := c.toNat
  (decide (9 ≤ n) && decide (n ≤ 13)) || n == 0x20 || n == 0x85 || n == 0xA0 || n == 0x1680 ||
    (decide (0x2000 ≤ n) && decide (n ≤ 0x200A)) || n == 0x2028 || n == 0x2029 || n == 0x202F ||
    n == 0x205F || n == 0x3000

/-- A list of characters without the white space at its two ends. -/
def trimChars (cs : List Char) : List Char :=
  ((cs.dropWhile isBlank).reverse.dropWhile isBlank).reverse

/-- A text without the white space at its two ends. -/
def trim (s : String) : String :=
  String.ofList (trimChars s.toList)

/-- A line held in reverse, without the carriage return that may end it. -/
def dropReturn : List Char → List Char
  | '\r' :: rest => rest
  | line => line

/-- Cut characters into lines, with the current line held in reverse. A text that ends in a line
feed has no further line after it. -/
def linesFrom : List Char → List Char → List (List Char)
  | [], [] => []
  | line, [] => [line.reverse]
  | line, c :: rest =>
    if c = '\n' then (dropReturn line).reverse :: linesFrom [] rest
    else linesFrom (c :: line) rest

/-- The lines of a text. -/
def lines (s : String) : List String :=
  (linesFrom [] s.toList).map String.ofList

end DllGraph.Text
