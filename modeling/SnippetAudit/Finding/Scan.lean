import SnippetAudit.Finding.Pattern
import SnippetAudit.Text.Lines

/-!
The scans for bugs, smells and weaknesses. Each looks at the lines of a snippet one by one.

A line has at most one bug for each pattern, and one weakness for each match of a pattern.
-/

namespace SnippetAudit.Finding

open Text

/-- The confidence in whatever a pattern finds. -/
def patternConfidence : Float := 0.8

/-- The lines of a text with their numbers, from one. -/
def numberedLines (code : String) : List (Nat × String) :=
  (lines code).zipIdx.map fun (line, i) => (i + 1, line)

/-- Bugs on one line. -/
def bugsOnLine (language : Language) (number : Nat) (line : String) : List Bug :=
  (bugPatterns language).filterMap fun p =>
    if occurs p.matcher line.toList then
      some {
        line := number
        severity := p.severity
        kind := p.kind
        description := p.description
        confidence := patternConfidence
        suggestion := some p.suggestion }
    else none

/-- The bugs in a snippet. -/
def bugs (code : String) (language : Language) : List Bug :=
  (numberedLines code).flatMap fun (number, line) => bugsOnLine language number line

/-- Weaknesses on one line. -/
def weaknessesOnLine (language : Language) (number : Nat) (line : String) : List Weakness :=
  (weaknessPatterns language).flatMap fun p =>
    (starts p.matcher line.toList).map fun _ => {
      line := number
      kind := p.kind
      description := p.description
      severity := p.severity
      confidence := patternConfidence
      cwe := some p.cwe
      suggestion := some p.suggestion }

/-- The weaknesses in a snippet. -/
def weaknesses (code : String) (language : Language) : List Weakness :=
  (numberedLines code).flatMap fun (number, line) => weaknessesOnLine language number line

/-- More lines than this make a snippet long. -/
def longLines : Nat := 50

/-- More leading blanks than this make a line deeply nested. -/
def deepBlanks : Nat := 16

/-- The smell of a snippet with too many lines. -/
def longFunction : Smell :=
  { line := 1
    kind := "long_function"
    description := "Function is too long (>50 lines). Consider breaking it down."
    severity := .medium
    confidence := 0.5
    suggestion := some "Extract smaller functions for better readability" }

/-- The smell of a line that is indented too far. -/
def deepNesting (number : Nat) : Smell :=
  { line := number
    kind := "deep_nesting"
    description := "Deep nesting detected. Reduces readability."
    severity := .medium
    confidence := 0.7
    suggestion := some "Consider early returns or extracting methods" }

/-- The smells of a snippet. -/
def smells (code : String) : List Smell :=
  (if longLines < (lines code).length then [longFunction] else []) ++
    (numberedLines code).filterMap fun (number, line) =>
      if deepBlanks < (line.toList.takeWhile isBlank).length then some (deepNesting number) else none

end SnippetAudit.Finding
