import SnippetAudit.Finding.Basic
import SnippetAudit.Language
import SnippetAudit.Text.Lines
import SnippetAudit.Text.Search

/-!
The patterns that the scans look for within one line.
-/

namespace SnippetAudit.Finding

open Text

/-! ### What is matched -/

/-- Matches one text and another behind it, with any blanks between them. The second text must not
start with a blank. -/
def gapped (lead trail : String) : Matcher := fun _ s =>
  if lead.toList.isPrefixOf s then
    let behind := s.drop lead.toList.length
    let blanks := behind.takeWhile isBlank
    if trail.toList.isPrefixOf (behind.drop blanks.length) then
      some (lead.toList.length + blanks.length + trail.toList.length)
    else none
  else none

/-- Matches what the first matcher matches, or else the second. -/
def either (first second : Matcher) : Matcher := fun before s => (first before s).or (second before s)

/-- A comparison for equality with `None` on its right. -/
def noneOnRight : Matcher := gapped "==" "None"

/-- A comparison for equality with `None` on its left. -/
def noneOnLeft : Matcher := gapped "None" "=="

/-- A comparison for equality with `None`. -/
def noneComparison : Matcher := either noneOnRight noneOnLeft

/-- An `except` that names no exception. -/
def bareExcept : Matcher := gapped "except" ":"

/-- Two equals signs that are no part of a longer operator. -/
def looseEquality : Matcher := fun before s =>
  match s with
  | '=' :: '=' :: rest =>
    let partOfOther := match before with
      | some c => c = '=' || c = '!' || c = '<' || c = '>'
      | none => false
    if partOfOther || rest.head? = some '=' then none else some 2
  | _ => none

/-- A call of `eval`. -/
def evalCall : Matcher := gapped "eval" "("

/-- A call that loads pickled data. -/
def pickleLoad : Matcher := either (gapped "pickle.loads" "(") (gapped "pickle.load" "(")

/-- An assignment to `innerHTML`, with the character behind its equals sign. -/
def innerHtmlAssignment : Matcher := fun before s =>
  match gapped "innerHTML" "=" before s with
  | some n =>
    match s.drop n with
    | [] => some n
    | c :: _ => if c = '=' then none else some (n + 1)
  | none => none

/-! ### Patterns -/

/-- A pattern that predicts a bug. -/
structure BugPattern where
  matcher : Matcher
  kind : String
  severity : Severity
  description : String
  suggestion : String

/-- A pattern that reveals a weakness. -/
structure WeaknessPattern where
  matcher : Matcher
  kind : String
  severity : Severity
  cwe : String
  description : String
  suggestion : String

/-- The patterns for bugs in a language. -/
def bugPatterns : Language → List BugPattern
  | .python => [
    { matcher := noneComparison
      kind := "comparison_error"
      severity := .medium
      description := "Use \"is None\" instead of \"== None\""
      suggestion := "Replace \"== None\" with \"is None\"" },
    { matcher := bareExcept
      kind := "bare_except"
      severity := .high
      description := "Bare except clause catches all exceptions"
      suggestion := "Specify exception types to catch" }]
  | .javascript | .typescript => [
    { matcher := looseEquality
      kind := "loose_equality"
      severity := .medium
      description := "Use strict equality (===) instead of loose equality (==)"
      suggestion := "Replace \"==\" with \"===\"" }]
  | .java | .cpp => []

/-- The patterns for weaknesses in a language. -/
def weaknessPatterns : Language → List WeaknessPattern
  | .python => [
    { matcher := evalCall
      kind := "code_injection"
      severity := .critical
      cwe := "CWE-95"
      description := "Use of eval() can lead to code injection"
      suggestion := "Avoid eval(). Use ast.literal_eval() for safe evaluation" },
    { matcher := pickleLoad
      kind := "insecure_deserialization"
      severity := .high
      cwe := "CWE-502"
      description := "Pickle deserialization can execute arbitrary code"
      suggestion := "Use JSON or other safe serialization formats" }]
  | .javascript | .typescript => [
    { matcher := innerHtmlAssignment
      kind := "xss_vulnerability"
      severity := .high
      cwe := "CWE-79"
      description := "Direct innerHTML assignment can lead to XSS"
      suggestion := "Use textContent or sanitize input before assignment" }]
  | .java | .cpp => []

end SnippetAudit.Finding
