import SnippetAudit.Text.Character

/-!
Texts as lists of lines.

A text is cut at every newline and at nothing else, so a text has one line more than it has
newlines and the empty text has one empty line. `unlines` puts the newlines back.
-/

namespace SnippetAudit.Text

/-- Cut at every occurrence of a separator; the pieces never hold it. -/
def splitAt (sep : Char) : List Char → List (List Char)
  | [] => [[]]
  | c :: rest =>
    if c = sep then [] :: splitAt sep rest
    else match splitAt sep rest with
      | [] => [[c]]
      | piece :: pieces => (c :: piece) :: pieces

/-- Join pieces with a separator between neighbours. -/
def joinWith (sep : Char) : List (List Char) → List Char
  | [] => []
  | [piece] => piece
  | piece :: pieces => piece ++ sep :: joinWith sep pieces

/-- The lines of a text. -/
def lines (text : String) : List String := (splitAt '\n' text.toList).map String.ofList

/-- The text with the given lines. -/
def unlines (ls : List String) : String := String.ofList (joinWith '\n' (ls.map String.toList))

/-- A list without its leading blanks. -/
def dropBlanks (cs : List Char) : List Char := cs.dropWhile isBlank

/-- A list without its trailing blanks. -/
def dropEndBlanks (cs : List Char) : List Char := (dropBlanks cs.reverse).reverse

/-- A text without trailing blanks. -/
def trimEnd (s : String) : String := String.ofList (dropEndBlanks s.toList)

/-- A text without leading and trailing blanks. -/
def trim (s : String) : String := String.ofList (dropEndBlanks (dropBlanks s.toList))

end SnippetAudit.Text
