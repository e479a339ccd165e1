import SnippetAudit.Text.Character

/-!
Searching a text from left to right.

A `Matcher` says how many characters a match takes that starts at a given place; it may look at
the character before that place. Searches take the leftmost match and go on behind it, so matches
never overlap.
-/

namespace SnippetAudit.Text

/-- How many characters match at a place, given the character before it and the text from it on.
No matcher of this library answers `some 0`. -/
abbrev Matcher := Option Char → List Char → Option Nat

/-- Matches one fixed, nonempty text. -/
def literal (needle : List Char) : Matcher := fun _ s =>
  if needle.isPrefixOf s then some needle.length else none

/-- Whether some match starts in `s`. -/
def occursFrom (m : Matcher) : Option Char → List Char → Bool
  | _, [] => false
  | before, c :: rest => (m before (c :: rest)).isSome || occursFrom m (some c) rest

/-- Whether some match starts in a text. -/
def occurs (m : Matcher) (s : List Char) : Bool := occursFrom m none s

/-- The matches found from left to right, as character positions of their starts; `skip` counts
the characters that still belong to the last match. -/
def startsFrom (m : Matcher) : Option Char → Nat → Nat → List Char → List Nat
  | _, _, _, [] => []
  | _, at', skip + 1, c :: rest => startsFrom m (some c) (at' + 1) skip rest
  | before, at', 0, c :: rest =>
    match m before (c :: rest) with
    | some n => at' :: startsFrom m (some c) (at' + 1) (n - 1) rest
    | none => startsFrom m (some c) (at' + 1) 0 rest

/-- Start positions of the non-overlapping matches in a text, in characters. -/
def starts (m : Matcher) (s : List Char) : List Nat := startsFrom m none 0 0 s

/-- Replace each match that a search from left to right finds by `f` of its characters. -/
def replaceFrom (m : Matcher) (f : List Char → List Char) : Option Char → Nat → List Char → List Char
  | _, _, [] => []
  | _, skip + 1, c :: rest => replaceFrom m f (some c) skip rest
  | before, 0, c :: rest =>
    match m before (c :: rest) with
    | some n => f ((c :: rest).take n) ++ replaceFrom m f (some c) (n - 1) rest
    | none => c :: replaceFrom m f (some c) 0 rest

/-- Replace every match in a text by `f` of its characters. -/
def replace (m : Matcher) (f : List Char → List Char) (s : List Char) : List Char :=
  replaceFrom m f none 0 s

/-- How often a search from left to right finds a match. -/
def countMatches (m : Matcher) (s : List Char) : Nat := (starts m s).length

/-- Whether a fixed text occurs. -/
def contains (needle hay : String) : Bool := needle.isEmpty || occurs (literal needle.toList) hay.toList

/-- Number of non-overlapping occurrences of a fixed, nonempty text. -/
def count (needle hay : String) : Nat := countMatches (literal needle.toList) hay.toList

/-- Bytes of the UTF-8 form of a list of characters. -/
def byteLength (cs : List Char) : Nat := cs.foldr (fun c n => c.utf8Size + n) 0

/-- The byte offset of a character position. -/
def byteOffset (s : List Char) (position : Nat) : Nat := byteLength (s.take position)

end SnippetAudit.Text
