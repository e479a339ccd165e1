import SnippetAudit.Json.Record

/-!
Findings: what the line scans say about a snippet.
-/

namespace SnippetAudit

namespace Finding

/-- How grave a finding is. -/
inductive Severity where
  | low
  | medium
  | high
  | critical
  deriving DecidableEq, Repr

namespace Severity

/-- The severities in ascending order. -/
def all : List Severity := [low, medium, high, critical]

/-- The word for a severity. -/
def name : Severity → String
  | low => "low"
  | medium => "medium"
  | high => "high"
  | critical => "critical"

instance : Json.Coded Severity where
  encode s := .string s.name
  decode := Json.ofWord name all

end Severity

end Finding

/-- A likely bug on one line. -/
structure Bug where
  line : Nat
  severity : Finding.Severity
  kind : String
  description : String
  /-- Between zero and one. -/
  confidence : Float
  suggestion : Option String
  deriving DecidableEq

instance : Json.Coded Bug where
  encode b := .object [
    ("line_number", Json.encode b.line), ("severity", Json.encode b.severity),
    ("bug_type", Json.encode b.kind), ("description", Json.encode b.description),
    ("confidence", Json.encode b.confidence), ("suggestion", Json.encode b.suggestion)]
  decode j := do
    let r ← Json.row?
      ["line_number", "severity", "bug_type", "description", "confidence", "suggestion"] j
    some {
      line := ← r.required "line_number"
      severity := ← r.required "severity"
      kind := ← r.required "bug_type"
      description := ← r.required "description"
      confidence := ← r.required "confidence"
      suggestion := ← r.optional "suggestion" }

/-- A trait of a snippet or of one of its lines that makes it hard to read. -/
structure Smell where
  line : Nat
  kind : String
  description : String
  severity : Finding.Severity
  confidence : Float
  suggestion : Option String
  deriving DecidableEq

instance : Json.Coded Smell where
  encode s := .object [
    ("line_number", Json.encode s.line), ("smell_type", Json.encode s.kind),
    ("description", Json.encode s.description), ("severity", Json.encode s.severity),
    ("confidence", Json.encode s.confidence),
    ("refactoring_suggestion", Json.encode s.suggestion)]
  decode j := do
    let r ← Json.row? ["line_number", "smell_type", "description", "severity", "confidence",
      "refactoring_suggestion"] j
    some {
      line := ← r.required "line_number"
      kind := ← r.required "smell_type"
      description := ← r.required "description"
      severity := ← r.required "severity"
      confidence := ← r.required "confidence"
      suggestion := ← r.optional "refactoring_suggestion" }

/-- A weakness that can be attacked, with its number in the common list of weaknesses. -/
structure Weakness where
  line : Nat
  kind : String
  description : String
  severity : Finding.Severity
  confidence : Float
  cwe : Option String
  suggestion : Option String
  deriving DecidableEq

instance : Json.Coded Weakness where
  encode w := .object [
    ("line_number", Json.encode w.line), ("vulnerability_type", Json.encode w.kind),
    ("description", Json.encode w.description), ("severity", Json.encode w.severity),
    ("confidence", Json.encode w.confidence), ("cwe_id", Json.encode w.cwe),
    ("fix_suggestion", Json.encode w.suggestion)]
  decode j := do
    let r ← Json.row? ["line_number", "vulnerability_type", "description", "severity",
      "confidence", "cwe_id", "fix_suggestion"] j
    some {
      line := ← r.required "line_number"
      kind := ← r.required "vulnerability_type"
      description := ← r.required "description"
      severity := ← r.required "severity"
      confidence := ← r.required "confidence"
      cwe := ← r.optional "cwe_id"
      suggestion := ← r.optional "fix_suggestion" }

end SnippetAudit
