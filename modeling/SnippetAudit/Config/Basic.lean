import SnippetAudit.Issue
import SnippetAudit.Toml.Document

/-!
The configuration: limits, linter commands, the embedding model and the penalties of the score.

Everything has a default, so an empty document is a configuration.
-/

namespace SnippetAudit

namespace Config

/-- Limits for every snippet. -/
structure Limits where
  /-- Time for each run of a linter, in seconds. -/
  timeout : Nat := 30
  /-- The most characters that are accepted. -/
  maxLength : Nat := 100000
  deriving DecidableEq, Repr

instance : Json.Coded Limits where
  encode c := .object [
    ("timeout_secs", Json.encode c.timeout), ("max_code_length", Json.encode c.maxLength)]
  decode j := do
    let r ← Json.row? ["timeout_secs", "max_code_length"] j
    some {
      timeout := ← r.withDefault "timeout_secs" 30
      maxLength := ← r.withDefault "max_code_length" 100000 }

/-- A snippet that is too long. -/
structure TooLong where
  length : Nat
  greatest : Nat
  deriving DecidableEq, Repr

/-- The wording of the error. -/
def TooLong.message (e : TooLong) : String :=
  "Code is too long (" ++ toString e.length ++ " characters, maximum is " ++ toString e.greatest ++ ")"

/-- Refuse a snippet with more characters than the limit. -/
def Limits.check (c : Limits) (code : String) : Except TooLong Unit :=
  if c.maxLength < code.toList.length then .error ⟨code.toList.length, c.maxLength⟩ else .ok ()

/-- The commands of the linters. -/
structure Linters where
  python : List String := ["pylint"]
  /-- Empty for the one that a package runner finds. -/
  javascript : List String := []
  deriving DecidableEq, Repr

instance : Json.Coded Linters where
  encode c := .object [
    ("python", Json.encode c.python), ("javascript", Json.encode c.javascript)]
  decode j := do
    let r ← Json.row? ["python", "javascript"] j
    some {
      python := ← r.withDefault "python" ["pylint"]
      javascript := ← r.withDefault "javascript" [] }

/-- The embedding model. -/
structure Model where
  enabled : Bool := true
  /-- Time without use after which the model is unloaded, in seconds. -/
  idleTimeout : Nat := 300
  /-- The most tokens that are embedded. -/
  maxTokens : Nat := 512
  dimensions : Nat := 768
  deriving DecidableEq, Repr

instance : Json.Coded Model where
  encode c := .object [
    ("enabled", Json.encode c.enabled), ("idle_timeout_secs", Json.encode c.idleTimeout),
    ("max_code_length", Json.encode c.maxTokens), ("dimensions", Json.encode c.dimensions)]
  decode j := do
    let r ← Json.row? ["enabled", "idle_timeout_secs", "max_code_length", "dimensions"] j
    some {
      enabled := ← r.withDefault "enabled" true
      idleTimeout := ← r.withDefault "idle_timeout_secs" 300
      maxTokens := ← r.withDefault "max_code_length" 512
      dimensions := ← r.withDefault "dimensions" 768 }

/-- The penalties of the score. -/
structure Scoring where
  base : Float := 100
  /-- For an issue whose severity has no penalty of its own. -/
  issuePenalty : Float := 2
  bugPenalty : Float := 5
  errorPenalty : Option Float := none
  warningPenalty : Option Float := none
  infoPenalty : Option Float := none
  deriving DecidableEq, BEq

instance : Json.Coded Scoring where
  encode c := .object [
    ("base", Json.encode c.base), ("issue_penalty", Json.encode c.issuePenalty),
    ("bug_penalty", Json.encode c.bugPenalty), ("error_penalty", Json.encode c.errorPenalty),
    ("warning_penalty", Json.encode c.warningPenalty), ("info_penalty", Json.encode c.infoPenalty)]
  decode j := do
    let r ← Json.row? ["base", "issue_penalty", "bug_penalty", "error_penalty", "warning_penalty",
      "info_penalty"] j
    some {
      base := ← r.withDefault "base" 100
      issuePenalty := ← r.withDefault "issue_penalty" 2
      bugPenalty := ← r.withDefault "bug_penalty" 5
      errorPenalty := ← r.withDefault "error_penalty" none
      warningPenalty := ← r.withDefault "warning_penalty" none
      infoPenalty := ← r.withDefault "info_penalty" none }

/-- The penalty for one issue. -/
def Scoring.penalty (c : Scoring) : Issue.Severity → Float
  | .error => c.errorPenalty.getD c.issuePenalty
  | .warning => c.warningPenalty.getD c.issuePenalty
  | .info => c.infoPenalty.getD c.issuePenalty

end Config

/-- The whole configuration. -/
structure Config where
  analysis : Config.Limits := {}
  linters : Config.Linters := {}
  model : Config.Model := {}
  scoring : Config.Scoring := {}
  deriving DecidableEq, BEq

namespace Config

instance : Json.Coded Config where
  encode c := .object [
    ("analysis", Json.encode c.analysis), ("linters", Json.encode c.linters),
    ("model", Json.encode c.model), ("scoring", Json.encode c.scoring)]
  decode j := do
    let r ← Json.row? ["analysis", "linters", "model", "scoring"] j
    some {
      analysis := ← r.withDefault "analysis" {}
      linters := ← r.withDefault "linters" {}
      model := ← r.withDefault "model" {}
      scoring := ← r.withDefault "scoring" {} }

/-- The configuration in a TOML document. -/
def ofToml? (text : String) : Option Config := (Toml.parse? text).bind Json.decode

end Config

end SnippetAudit
