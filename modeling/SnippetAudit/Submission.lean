import SnippetAudit.Embedding.Vector
import SnippetAudit.Finding.Basic
import SnippetAudit.Fix.Basic
import SnippetAudit.Issue
import SnippetAudit.Score
import SnippetAudit.Style.Patterns

/-!
Everything that is known about one snippet.
-/

namespace SnippetAudit

/-- What the stages of an analysis say about one snippet. -/
structure Submission where
  language : Language
  /-- The static analysis, if the language has an analyzer. -/
  analysis : Option Analysis
  bugs : List Bug
  smells : List Smell
  weaknesses : List Weakness
  fixes : List Fix
  style : Style.Patterns
  score : Score
  /-- The embedding, which is never written out. -/
  embedding : Option Embedding.Vector := none

namespace Submission

/-- The issues that the linter reported. -/
def issues (s : Submission) : List Issue := (s.analysis.map (·.issues)).getD []

/-- The number of bugs, smells and weaknesses. -/
def findingCount (s : Submission) : Nat := s.bugs.length + s.smells.length + s.weaknesses.length

/-- The members of the object that a submission is written as. -/
def members (s : Submission) : List (String × Json) := [
  ("language", Json.encode s.language), ("analysis", Json.encode s.analysis),
  ("bugs", Json.encode s.bugs), ("smells", Json.encode s.smells),
  ("security", Json.encode s.weaknesses), ("fixes", Json.encode s.fixes),
  ("style", Json.encode s.style), ("score", Json.encode s.score)]

instance : Json.Coded Submission where
  encode s := .object s.members
  decode j := do
    let r ← Json.row?
      ["language", "analysis", "bugs", "smells", "security", "fixes", "style", "score"] j
    some {
      language := ← r.required "language"
      analysis := ← r.optional "analysis"
      bugs := ← r.required "bugs"
      smells := ← r.required "smells"
      weaknesses := ← r.required "security"
      fixes := ← r.required "fixes"
      style := ← r.required "style"
      score := ← r.required "score" }

end Submission

end SnippetAudit
