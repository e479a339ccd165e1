import SnippetAudit.Text.Character
import SnippetAudit.Text.Table.Case

/-!
Lowercase text, by the full mapping of Unicode.

Every character has a lowercase form of its own, with two exceptions: a capital I with a dot above
becomes two characters, and a capital sigma at the end of a word becomes a final sigma.
-/

namespace SnippetAudit.Text

/-- The code point that the runs of a case table give for `n`. -/
def lowerCode : List (Nat × Nat × Nat × Int) → Nat → Nat
  | [], n => n
  | (first, last, step, shift) :: rest, n =>
    if n < first then n
    else if n ≤ last then
      if (n - first) % step = 0 then ((n : Int) + shift).toNat else lowerCode rest n
    else lowerCode rest n

/-- The lowercase form of a character that has one of its own. -/
def lowerChar (c : Char) : Char :=
  if isUpperAscii c then Char.ofNat (c.toNat + 32)
  else if beyondAscii c then Char.ofNat (lowerCode Table.lowerRuns c.toNat)
  else c

/-- The property `Cased`. -/
def isCased (c : Char) : Bool := inRanges Table.cased c.toNat

/-- The property `Case_Ignorable`. -/
def isCaseIgnorable (c : Char) : Bool := inRanges Table.caseIgnorable c.toNat

/-- Whether the first character that does not ignore case is a cased one. -/
def reachesCased (s : List Char) : Bool :=
  match s.dropWhile isCaseIgnorable with
  | c :: _ => isCased c
  | [] => false

/-- Lowercase a text, given the reversed text in front of it. -/
def lowerFrom : List Char → List Char → List Char
  | _, [] => []
  | before, c :: rest =>
    let lowered :=
      if c = '\u03A3' then [if reachesCased before && !reachesCased rest then '\u03C2' else '\u03C3']
      else if c = '\u0130' then ['i', '\u0307']
      else [lowerChar c]
    lowered ++ lowerFrom (c :: before) rest

/-- A text in lower case. -/
def lower (s : String) : String := String.ofList (lowerFrom [] s.toList)

end SnippetAudit.Text
