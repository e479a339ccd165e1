import SnippetAudit.Config.Basic

/-!
The score of a snippet: a base, less a penalty for every issue and every bug, and never negative.
-/

namespace SnippetAudit

/-- A score with its parts. -/
structure Score where
  total : Float
  grade : String
  issuePenalty : Float
  bugPenalty : Float
  deriving DecidableEq

namespace Score

instance : Json.Coded Score where
  encode s := .object [
    ("score", Json.encode s.total), ("grade", Json.encode s.grade),
    ("issue_penalty", Json.encode s.issuePenalty), ("bug_penalty", Json.encode s.bugPenalty)]
  decode j := do
    let r ← Json.row? ["score", "grade", "issue_penalty", "bug_penalty"] j
    some {
      total := ← r.required "score"
      grade := ← r.required "grade"
      issuePenalty := ← r.required "issue_penalty"
      bugPenalty := ← r.required "bug_penalty" }

/-- The letter for a score. -/
def gradeOf (x : Float) : String :=
  if 90 ≤ x then "A" else if 80 ≤ x then "B" else if 70 ≤ x then "C" else if 60 ≤ x then "D" else "F"

/-- The sum of some numbers. The empty sum is minus zero, which changes no number added to it. -/
def sum (xs : List Float) : Float := xs.foldl (· + ·) (-0.0)

/-- The score for some issues and a number of bugs. -/
def compute (c : Config.Scoring) (issues : List Issue) (bugs : Nat) : Score :=
  let issuePenalty := sum (issues.map fun i => c.penalty i.severity)
  let bugPenalty := c.bugPenalty * Float.ofNat bugs
  let rest := c.base - issuePenalty - bugPenalty
  let total := if 0 < rest then rest else 0
  { total, grade := gradeOf total, issuePenalty, bugPenalty }

end Score

end SnippetAudit
