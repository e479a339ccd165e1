import SnippetAudit.Fix.Basic
import SnippetAudit.Proofs.Text.Lines

/-!
A diff can be read back.

Each line of a diff stands behind a mark and a space. What is removed has the mark `-`, what is put in its
place the mark `+`, and what stays as it is a space. So the lines with a `-` or a space are those of the text
before, and the lines with a space or a `+` those of the text after (`diffBefore_renderDiff`,
`diffAfter_renderDiff`). Neither depends on what the texts have on their lines, which may begin like marks
or be empty; and two edits with the same diff are the same (`renderDiff_eq_iff`).
-/

namespace SnippetAudit.Fix

open Text

/-! ### Reading -/

/-- What stands on a line of a diff behind its mark, if this is one of some marks. -/
def behindMark? (marks : List Char) (line : String) : Option String :=
  match line.toList with
  | mark :: _ :: rest => if mark ∈ marks then some (String.ofList rest) else none
  | _ => none

/-- The text on the lines of a diff that have one of some marks. -/
def unmarked (marks : List Char) (diff : String) : String :=
  unlines ((lines diff).filterMap (behindMark? marks))

/-- The text that a diff starts from. -/
def diffBefore (diff : String) : String := unmarked ['-', ' '] diff

/-- The text that a diff leads to. -/
def diffAfter (diff : String) : String := unmarked [' ', '+'] diff

/-! ### Lines with a mark -/

/-- The lines of a text behind a mark. -/
def markedLines (mark : Char) (text : String) : List String :=
  (lines text).map fun line => String.ofList [mark] ++ " " ++ line

/-- A text with a mark in front of each line has these lines. -/
theorem lines_marked {mark : Char} (clean : mark ≠ '\n') (text : String) :
    lines (marked (String.ofList [mark]) text) = markedLines mark text := by
  refine lines_unlines (by simpa using lines_ne_nil text) ?_
  intro l mem
  obtain ⟨line, inside, rfl⟩ := List.mem_map.mp mem
  have rest : '\n' ∉ line.toList := isLine_of_mem_lines inside
  simp [IsLine, clean.symm, rest]

theorem behindMark?_mark (marks : List Char) (mark : Char) (line : String) :
    behindMark? marks (String.ofList [mark] ++ " " ++ line) =
      if mark ∈ marks then some line else none := by
  simp [behindMark?]

/-- Of the lines behind one mark all are read, or none is. -/
theorem filterMap_markedLines (marks : List Char) (mark : Char) (text : String) :
    (markedLines mark text).filterMap (behindMark? marks) =
      if mark ∈ marks then lines text else [] := by
  have each : behindMark? marks ∘ (fun line => String.ofList [mark] ++ " " ++ line) =
      fun line => if mark ∈ marks then some line else none :=
    funext fun line => behindMark?_mark marks mark line
  rw [markedLines, List.filterMap_map, each]
  split
  · exact List.filterMap_some
  · exact List.filterMap_none _

/-! ### Rendering and reading -/

/-- **The lines of a diff**: nothing is put in the place of lines that are deleted, and texts that are the
same are shown once. -/
theorem lines_renderDiff (before after : String) :
    lines (renderDiff before after) =
      if after = "" then markedLines '-' before
      else if before = after then markedLines ' ' before
      else markedLines '-' before ++ markedLines '+' after := by
  have minus : lines (marked "-" before) = markedLines '-' before := lines_marked (by decide) before
  have blank : lines (marked " " before) = markedLines ' ' before := lines_marked (by decide) before
  have plus : lines (marked "+" after) = markedLines '+' after := lines_marked (by decide) after
  simp only [renderDiff, String.isEmpty_iff]
  split
  · exact minus
  · split
    · exact blank
    · rw [lines_append_newline, minus, plus]

/-- The text before is read back from a diff. -/
theorem diffBefore_renderDiff (before after : String) :
    diffBefore (renderDiff before after) = before := by
  rw [diffBefore, unmarked, lines_renderDiff]
  split
  · simp [filterMap_markedLines, unlines_lines]
  · split
    · simp [filterMap_markedLines, unlines_lines]
    · simp [filterMap_markedLines, unlines_lines, List.filterMap_append]

/-- The text after is read back from a diff; where nothing is put in place, no line is read. -/
theorem diffAfter_renderDiff (before after : String) :
    diffAfter (renderDiff before after) = after := by
  rw [diffAfter, unmarked, lines_renderDiff]
  split
  next deleted => simp [filterMap_markedLines, deleted, unlines_nil]
  next =>
    split
    next same => simp [filterMap_markedLines, unlines_lines, same]
    next => simp [filterMap_markedLines, unlines_lines, List.filterMap_append]

/-- **A diff determines its edit**: two edits with the same diff have the same text before and the same text
after. -/
theorem renderDiff_eq_iff (before after before' after' : String) :
    renderDiff before after = renderDiff before' after' ↔ before = before' ∧ after = after' := by
  constructor
  · intro same
    constructor
    · rw [← diffBefore_renderDiff before after, same, diffBefore_renderDiff]
    · rw [← diffAfter_renderDiff before after, same, diffAfter_renderDiff]
  · rintro ⟨rfl, rfl⟩
    rfl

end SnippetAudit.Fix
