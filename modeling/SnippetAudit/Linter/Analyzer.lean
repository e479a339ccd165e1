import SnippetAudit.Linter.Report

/-!
Analyzers: a linter with the command that runs it, joined with the counts for its languages.

An analyzer stages a snippet in a file, runs the command on it and reads what it writes. A linter
that fails leaves its failure in the result; the counts are there in any case.
-/

namespace SnippetAudit.Linter

/-- The linters that analyzers are built on. -/
inductive Kind where
  | pylint
  | eslint
  deriving DecidableEq, Repr

/-- Where to find a program that runs packages of JavaScript. -/
inductive PackageRunner where
  | bun
  | npm
  | none
  deriving DecidableEq, Repr

/-- The command of a package runner; a missing one is tried as `npx`. -/
def PackageRunner.command : PackageRunner → String
  | bun => "bunx"
  | npm | none => "npx"

namespace Kind

/-- The name of an analyzer. -/
def name : Kind → String
  | pylint => "pylint"
  | eslint => "eslint"

/-- The name of the linter in messages. -/
def title : Kind → String
  | pylint => "pylint"
  | eslint => "ESLint"

/-- How to install the linter. -/
def hint : Kind → String
  | pylint => "Pylint not installed. Install with: pip install pylint"
  | eslint => "ESLint not found. Install with: npm install -g eslint"

/-- The argument that makes the linter write JSON. -/
def jsonFlag : Kind → String
  | pylint => "--output-format=json"
  | eslint => "--format=json"

/-- The command for a linter that the configuration says nothing about. -/
def standardCommand (runner : PackageRunner) : Kind → List String
  | pylint => ["pylint"]
  | eslint => [runner.command, "eslint"]

/-- The language that the linter takes a snippet for. -/
def languageOf (code : String) : Kind → Language
  | pylint => .python
  | eslint => if Complexity.isTypescript code then .typescript else .javascript

/-- The counts for a snippet. -/
def complexity (code : String) : Kind → Metrics
  | pylint => Complexity.ofPython code
  | eslint => Complexity.ofScript code

/-- The issues in a report. -/
def issues? (report : Json) : Kind → Option (List Issue)
  | pylint => (pylintMessages report).map (·.map pylintIssue)
  | eslint => (eslintMessages report).map (·.map eslintIssue)

end Kind

/-- The extension of the file that a snippet is staged in. -/
def extensionOf : Language → String
  | .python => "py"
  | .typescript => "ts"
  | _ => "js"

/-- A run of a linter: the command, the file it is given, the argument behind the file and the time
it may take. -/
structure Job where
  kind : Kind
  /-- The configured command; empty for the standard one. -/
  command : List String
  extension : String
  source : String
  /-- In milliseconds; zero for no limit. -/
  timeout : Nat

/-- The command of a run with its arguments, given the staged file and where packages are found. -/
def Job.arguments (j : Job) (runner : PackageRunner) (file : String) : List String :=
  (if j.command.isEmpty then j.kind.standardCommand runner else j.command) ++ [file, j.kind.jsonFlag]

/-- What came of a run. -/
abbrev Outcome := Except Failure Output

/-- Whoever carries out runs. -/
abbrev Host := Job → Outcome

/-- A linter with its configuration. -/
structure Analyzer where
  kind : Kind
  command : List String
  timeout : Nat
  deriving DecidableEq, Repr

/-- The run of an analyzer on a snippet. -/
def Analyzer.job (a : Analyzer) (code : String) : Job :=
  { kind := a.kind
    command := a.command
    extension := extensionOf (a.kind.languageOf code)
    source := code
    timeout := a.timeout }

/-- The issues that a run found. -/
def issuesOf (kind : Kind) (outcome : Outcome) : Except Failure (List Issue) := do
  let output ← outcome
  match ← output.json kind.title with
  | none => .ok []
  | some report =>
    match kind.issues? report with
    | some issues => .ok issues
    | none => .error (.unreadable kind.title)

/-- The analysis of a snippet, given what came of the run. -/
def Analyzer.read (a : Analyzer) (code : String) (outcome : Outcome) : Analysis :=
  let found := issuesOf a.kind outcome
  { issues := found.toOption.getD []
    metrics := a.kind.complexity code
    language := a.kind.languageOf code
    error := match found with
      | .ok _ => none
      | .error failure => some failure.message }

/-- Analyze a snippet. -/
def Analyzer.analyze (host : Host) (a : Analyzer) (code : String) : Analysis :=
  a.read code (host (a.job code))

end SnippetAudit.Linter
