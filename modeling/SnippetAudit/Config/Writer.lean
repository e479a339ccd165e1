import SnippetAudit.Config.Basic
import SnippetAudit.Json.Printer

/-!
Writing a configuration as a TOML document, and the document that a new project starts with.

TOML has integers of 64 bits with a sign, so a configuration with a greater number has no document.
-/

namespace SnippetAudit.Config

/-- A string in quotation marks. -/
def tomlString (s : String) : String :=
  let escape (c : Char) : List Char :=
    if c = '\x7F' then ['\\', 'u', '0', '0', '7', 'F'] else Json.escape c
  String.ofList ('"' :: s.toList.flatMap escape ++ ['"'])

/-- Strings in brackets. -/
def tomlStrings (ss : List String) : String := "[" ++ String.intercalate ", " (ss.map tomlString) ++ "]"

/-- A number that is no integer. -/
def tomlFloat (x : Float) : String :=
  if x.isNaN then "nan"
  else if x.isInf then (if Decimal.negative x then "-inf" else "inf")
  else Decimal.text .data x

/-- An integer, if it is small enough. -/
def tomlInteger? (n : Nat) : Option String := if n < 0x8000000000000000 then some (toString n) else none

/-- A line with a key and its value. -/
def tomlLine (key value : String) : String := key ++ " = " ++ value ++ "\n"

/-- A line for a value that may be missing. -/
def tomlOptional (key : String) : Option Float → String
  | some x => tomlLine key (tomlFloat x)
  | none => ""

/-- The document for a configuration. -/
def toToml? (c : Config) : Option String := do
  let timeout ← tomlInteger? c.analysis.timeout
  let maxLength ← tomlInteger? c.analysis.maxLength
  let idleTimeout ← tomlInteger? c.model.idleTimeout
  let maxTokens ← tomlInteger? c.model.maxTokens
  let dimensions ← tomlInteger? c.model.dimensions
  some (String.join [
    "[analysis]\n", tomlLine "timeout_secs" timeout, tomlLine "max_code_length" maxLength,
    "\n[linters]\n", tomlLine "python" (tomlStrings c.linters.python),
    tomlLine "javascript" (tomlStrings c.linters.javascript),
    "\n[model]\n", tomlLine "enabled" (if c.model.enabled then "true" else "false"),
    tomlLine "idle_timeout_secs" idleTimeout, tomlLine "max_code_length" maxTokens,
    tomlLine "dimensions" dimensions,
    "\n[scoring]\n", tomlLine "base" (tomlFloat c.scoring.base),
    tomlLine "issue_penalty" (tomlFloat c.scoring.issuePenalty),
    tomlLine "bug_penalty" (tomlFloat c.scoring.bugPenalty),
    tomlOptional "error_penalty" c.scoring.errorPenalty,
    tomlOptional "warning_penalty" c.scoring.warningPenalty,
    tomlOptional "info_penalty" c.scoring.infoPenalty])

/-- The document that a new project starts with. -/
def template : String := "# codevibe configuration

[analysis]
# Timeout for each external linter run, in seconds
timeout_secs = 30
# Largest snippet accepted, in characters
max_code_length = 100000

[linters]
# Python linter command (file path and --output-format=json are appended)
python = [\"pylint\"]
# JavaScript/TypeScript linter command; empty uses bunx or npx eslint
javascript = []

[model]
# Lazily loaded embedding model used for semantic hints
enabled = true
# Unload the model after this many idle seconds
idle_timeout_secs = 300
max_code_length = 512
dimensions = 768

[scoring]
base = 100.0
issue_penalty = 2.0
bug_penalty = 5.0
# error_penalty = 3.0
# warning_penalty = 2.0
# info_penalty = 1.0
"

end SnippetAudit.Config
