import SnippetAudit.Text.Search

/-!
Ranges of bytes of a text.

Syntax trees point into a text by counting bytes. A range of bytes is a text of its own only if no
character lies across one of its sides.
-/

namespace SnippetAudit.Text

/-- The first bytes of a text, so many of them, and the text behind. -/
def splitBytes? : Nat → List Char → Option (List Char × List Char)
  | 0, s => some ([], s)
  | _ + 1, [] => none
  | n + 1, c :: s =>
    if c.utf8Size ≤ n + 1 then
      (splitBytes? (n + 1 - c.utf8Size) s).map fun (before, behind) => (c :: before, behind)
    else none

/-- The text from one byte offset up to another. -/
def bytes? (start stop : Nat) (s : List Char) : Option (List Char) := do
  let (_, s) ← splitBytes? start s
  let (text, _) ← splitBytes? (stop - start) s
  some text

end SnippetAudit.Text
