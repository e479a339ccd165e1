import SnippetAudit.Complexity
import SnippetAudit.Language

/-!
What static analysis says about a snippet: issues of a linter in one common form, and counts.
-/

namespace SnippetAudit

/-- How grave an issue is. -/
inductive Issue.Severity where
  | info
  | warning
  | error
  deriving DecidableEq, Repr

namespace Issue.Severity

/-- The severities in ascending order. -/
def all : List Severity := [info, warning, error]

/-- The word for a severity. -/
def name : Severity → String
  | info => "info"
  | warning => "warning"
  | error => "error"

instance : Json.Coded Severity where
  encode s := .string s.name
  decode := Json.ofWord name all

end Issue.Severity

/-- An issue that a linter reports. -/
structure Issue where
  /-- The linter's own class of the issue. -/
  category : String
  symbol : String
  message : String
  /-- The line, counted from one, or zero if the linter named none. -/
  line : UInt32
  column : UInt32
  severity : Issue.Severity
  deriving DecidableEq, Repr

instance : Json.Coded Issue where
  encode i := .object [
    ("type", Json.encode i.category), ("symbol", Json.encode i.symbol),
    ("message", Json.encode i.message), ("line", Json.encode i.line),
    ("column", Json.encode i.column), ("severity", Json.encode i.severity)]
  decode j := do
    let r ← Json.row? ["type", "symbol", "message", "line", "column", "severity"] j
    some {
      category := ← r.required "type"
      symbol := ← r.withDefault "symbol" ""
      message := ← r.withDefault "message" ""
      line := ← r.withDefault "line" 0
      column := ← r.withDefault "column" 0
      severity := ← r.withDefault "severity" Issue.Severity.info }

/-- The result of static analysis. It has no issues when it has an error. -/
structure Analysis where
  issues : List Issue
  metrics : Metrics
  language : Language
  error : Option String

instance : Json.Coded Analysis where
  encode a := .object [
    ("issues", Json.encode a.issues), ("complexity_metrics", Json.encode a.metrics),
    ("language", Json.encode a.language), ("error", Json.encode a.error)]
  decode j := do
    let r ← Json.row? ["issues", "complexity_metrics", "language", "error"] j
    some {
      issues := ← r.required "issues"
      metrics := ← r.required "complexity_metrics"
      language := ← r.required "language"
      error := ← r.optional "error" }

end SnippetAudit
