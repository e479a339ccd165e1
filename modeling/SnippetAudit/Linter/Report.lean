import SnippetAudit.Issue
import SnippetAudit.Linter.Outcome

/-!
Reading the reports of linters.

A linter's report is an array. Whatever a message lacks, or holds in another shape than expected,
counts as absent; a message is never dropped. Positions are cut to 32 bits.
-/

namespace SnippetAudit.Linter

/-- The text of a member, or none if it is no text. -/
def textAt (name : String) (message : Json) : Option String :=
  match message.member? name with
  | some (.string s) => some s
  | _ => none

/-- A member that is a natural number, cut to 32 bits, and otherwise zero. -/
def positionAt (name : String) (message : Json) : UInt32 :=
  match message.member? name with
  | some (.int n) => if 0 ≤ n then n.toNat.toUInt32 else 0
  | _ => 0

/-! ### Messages of pylint -/

/-- The severity for a type of message. -/
def severityOfType (type : String) : Issue.Severity :=
  let lowered := Text.lower type
  if lowered == "error" || lowered == "fatal" then .error
  else if lowered == "warning" then .warning
  else .info

/-- The issue for a message of pylint. -/
def pylintIssue (message : Json) : Issue :=
  let type := (textAt "type" message).getD ""
  { category := type
    symbol := (textAt "symbol" message).getD ""
    message := (textAt "message" message).getD ""
    line := positionAt "line" message
    column := positionAt "column" message
    severity := severityOfType type }

/-- The messages in a report of pylint. -/
def pylintMessages : Json → Option (List Json)
  | .array messages => some messages
  | _ => none

/-! ### Messages of ESLint -/

/-- The severity for a number, which has to fit in 64 bits with a sign. -/
def severityOfLevel : Option Json → Issue.Severity
  | some (.int n) => if n = 2 then .error else if n = 1 || 0x8000000000000000 ≤ n then .warning else .info
  | _ => .warning

/-- The issue for a message of ESLint. -/
def eslintIssue (message : Json) : Issue :=
  let rule := textAt "ruleId" message
  { category := rule.getD "unknown"
    symbol := rule.getD ""
    message := (textAt "message" message).getD ""
    line := positionAt "line" message
    column := positionAt "column" message
    severity := severityOfLevel (message.member? "severity") }

/-- The messages in a report of ESLint: those of the first file. -/
def eslintMessages : Json → Option (List Json)
  | .array [] => some []
  | .array (first :: _) =>
    match first.member? "messages" with
    | some (.array messages) => some messages
    | _ => some []
  | _ => none

end SnippetAudit.Linter
