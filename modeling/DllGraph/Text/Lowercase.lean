import DllGraph.Text.CaseTable

/-!
# Lowercasing

Module and file names are compared by their lowercase forms. `lowercase` is the full Unicode
mapping: letter by letter, with `İ` going to two characters, and with the one mapping that looks
at its neighbours, the capital sigma, which becomes `ς` at the end of a word and `σ` elsewhere.
`asciiLowercase` changes the letters `A` to `Z` only.
-/

namespace DllGraph.Text

/-- The simple lowercase mapping of a character beyond ASCII. -/
def simpleLowercase (c : Char) : Char :=
  ((lowercaseRuns.findSome? (·.map? c.toNat)).map Char.ofNat).getD c

/-- The lowercase form of a character that stands alone. -/
def lowercaseChar (c : Char) : List Char :=
  if c.toNat < 0x80 then [c.toLower]
  else if c = 'İ' then ['i', Char.ofNat 0x307]
  else [simpleLowercase c]

/-- Whether the first character that is not case-ignorable is a cased one. -/
def meetsCased (cs : List Char) : Bool :=
  match cs.dropWhile caseIgnorableSet.contains with
  | [] => false
  | c :: _ => casedSet.contains c

/-- A capital sigma ends a word when a letter comes before it and none after it, the signs that
may stand inside a word not counting. `before` is the text before it in reverse. -/
def isFinalSigma (before after : List Char) : Bool :=
  meetsCased before && !meetsCased after

/-- Lowercase characters, given the ones before them in reverse. -/
def lowercaseFrom : List Char → List Char → List Char
  | _, [] => []
  | before, c :: rest =>
    (if c = 'Σ' then [if isFinalSigma before rest then 'ς' else 'σ'] else lowercaseChar c) ++
      lowercaseFrom (c :: before) rest

/-- The lowercase form of a text. -/
def lowercase (s : String) : String :=
  String.ofList (lowercaseFrom [] s.toList)

/-- The text with the letters `A` to `Z` in lower case and all else as it is. -/
def asciiLowercase (s : String) : String :=
  String.ofList (s.toList.map Char.toLower)

end DllGraph.Text
