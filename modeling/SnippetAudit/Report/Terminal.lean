import SnippetAudit.Decimal.Places
import SnippetAudit.Report.Basic
import SnippetAudit.Text.Lines

/-!
Reports as text for a terminal. Colors are escape sequences, and columns are padded with spaces.
-/

namespace SnippetAudit.Report.Terminal

/-! ### Colors and columns -/

def reset : String := "\x1b[0m"

def bold : String := "\x1b[1m"

def dim : String := "\x1b[2m"

def red : String := "\x1b[31m"

def green : String := "\x1b[32m"

def yellow : String := "\x1b[33m"

def blue : String := "\x1b[34m"

def lightRed : String := "\x1b[91m"

def lightGreen : String := "\x1b[92m"

/-- A text in a color. -/
def inked (color text : String) : String := color ++ text ++ reset

/-- A text with spaces behind it, up to a number of characters. -/
def padEnd (width : Nat) (text : String) : String :=
  text ++ String.ofList (List.replicate (width - text.length) ' ')

/-- A text with spaces in front of it, up to a number of characters. -/
def padStart (width : Nat) (text : String) : String :=
  String.ofList (List.replicate (width - text.length) ' ') ++ text

/-- The color of a grade. -/
def gradeColor (grade : String) : String :=
  if grade = "A" then green
  else if grade = "B" then lightGreen
  else if grade = "C" then yellow
  else if grade = "D" then lightRed
  else if grade = "F" then red
  else reset

/-- The color of a severity. -/
def severityColor : Finding.Severity → String
  | .critical => red
  | .high => lightRed
  | .medium => yellow
  | .low => blue

/-- The tag of a severity. -/
def severityTag : Finding.Severity → String
  | .critical => "[C]"
  | .high => "[H]"
  | .medium => "[M]"
  | .low => "[L]"

/-! ### Submissions -/

/-- A line for an issue. -/
def issueLine (i : Issue) : String :=
  "  " ++ inked dim (padStart 4 (toString i.line.toNat) ++ ":" ++ padEnd 3 (toString i.column.toNat))
    ++ " " ++ i.severity.name ++ " " ++ i.message ++ " " ++ inked dim ("(" ++ i.symbol ++ ")") ++ "\n"

/-- What the static analysis says. -/
def analysisPart (a : Analysis) : String :=
  let failure := match a.error with
    | some e => inked dim ("Linter: " ++ e) ++ "\n"
    | none => ""
  let issues :=
    if a.issues.isEmpty then ""
    else inked bold "ISSUES" ++ " (" ++ toString a.issues.length ++ ")\n"
      ++ String.join (a.issues.map issueLine) ++ "\n"
  let metrics :=
    if a.metrics.entries.isEmpty then ""
    else inked bold "METRICS" ++ "\n  "
      ++ String.intercalate "  " (a.metrics.entries.map fun (name, n) => name ++ "=" ++ toString n)
      ++ "\n\n"
  failure ++ issues ++ metrics

/-- A line for a finding. -/
def findingLine (severity : Finding.Severity) (line : Nat) (kind description : String) : String :=
  "  " ++ inked (severityColor severity) (severityTag severity) ++ " "
    ++ inked dim ("line " ++ padEnd 4 (toString line)) ++ " " ++ padEnd 24 kind ++ " " ++ description
    ++ "\n"

/-- A line for a bug. -/
def bugLine (b : Bug) : String := findingLine b.severity b.line b.kind b.description

/-- A line for a smell. -/
def smellLine (s : Smell) : String := findingLine s.severity s.line s.kind s.description

/-- A line for a weakness. -/
def weaknessLine (w : Weakness) : String :=
  let kind := match w.cwe with
    | some cwe => w.kind ++ " " ++ cwe
    | none => w.kind
  findingLine w.severity w.line kind w.description

/-- What the scans say. -/
def findingsPart (s : Submission) : String :=
  if s.findingCount = 0 then ""
  else inked bold "FINDINGS" ++ " (" ++ toString s.findingCount ++ " total)\n"
    ++ String.join (s.bugs.map bugLine ++ s.smells.map smellLine ++ s.weaknesses.map weaknessLine)
    ++ "\n"

/-- The most fixes that a report on a file names. -/
def fixLimit : Nat := 10

/-- What can be fixed. -/
def fixesPart (fixes : List Fix) : String :=
  if fixes.isEmpty then ""
  else
    let named := (fixes.take fixLimit).map fun f =>
      "  " ++ inked dim (padEnd 7 f.id) ++ " " ++ f.title ++ "\n"
    let more := fixes.length - fixLimit
    inked bold "FIXES" ++ " (" ++ toString fixes.length ++ " suggested, "
      ++ toString (fixes.countP (·.automatic)) ++ " auto-applicable)\n" ++ String.join named
      ++ (if more = 0 then ""
        else "  " ++ inked dim ("...and " ++ toString more ++ " more (use \x60codevibe fix\x60)") ++ "\n")
      ++ "\n"

/-- The style of the snippet. -/
def stylePart (p : Style.Patterns) : String :=
  inked bold "STYLE" ++ "\n  naming=" ++ p.naming.name ++ " indent=" ++ p.indentation.display
    ++ " quotes=" ++ p.quotes.name ++ " line_length=" ++ toString p.lineLength
    ++ " comments=" ++ p.comments.name ++ " imports=" ++ p.imports.name ++ "\n"

/-- A submission. -/
def submission (s : Submission) : String :=
  "Language: " ++ s.language.name ++ "  Score: "
    ++ inked bold (Decimal.fixed 1 s.score.total ++ "/100") ++ "  Grade: "
    ++ gradeColor s.score.grade ++ inked bold s.score.grade ++ "\n\n"
    ++ ((s.analysis.map analysisPart).getD "") ++ findingsPart s ++ fixesPart s.fixes ++ stylePart s.style

/-! ### Whole reports -/

/-- The line below a path. -/
def rule : String := String.ofList (List.replicate 38 '─')

/-- A report on a file. -/
def file (f : File) : String :=
  "\n" ++ inked bold f.path ++ "\n" ++ inked dim rule ++ "\n" ++
    match f.submission, f.error with
    | some s, _ => submission s
    | none, some e => inked red "error:" ++ " " ++ e ++ "\n"
    | none, none => ""

/-- The rows of a diff: its lines, without a carriage return in front of a newline and without an
empty last line. -/
def rows (diff : String) : List String :=
  let ls := Text.lines diff
  let inner := ls.dropLast.map fun line =>
    if line.toList.getLast? = some '\r' then String.ofList line.toList.dropLast else line
  inner ++ (ls.getLast?.toList.filter fun line => !line.isEmpty)

/-- The color of a row of a diff. -/
def rowColor (row : String) : String :=
  match row.toList with
  | '-' :: _ => red
  | '+' :: _ => green
  | _ => dim

/-- A fix with its diff. -/
def fix (f : Fix) : String :=
  let mode := if f.automatic then "auto" else "manual"
  "\n" ++ inked bold f.id ++ " [" ++ f.kind.name ++ "] " ++ f.title ++ " "
    ++ inked dim ("(confidence " ++ Decimal.fixed 1 f.confidence ++ ", " ++ mode ++ ")") ++ "\n"
    ++ String.join ((rows f.diff).map fun row => "  " ++ inked (rowColor row) row ++ "\n")

/-- A report on the fixes for a file. -/
def fixList (l : FixList) : String :=
  "\n" ++ inked bold l.path ++ ": " ++ toString l.fixes.length ++ " fixes\n"
    ++ String.join (l.fixes.map fix)

end SnippetAudit.Report.Terminal

namespace SnippetAudit.Report

/-- A report on some files. -/
def render (files : List File) : Format → String
  | .text => String.join (files.map Terminal.file)
  | .json => Json.pretty (.array (files.map File.json))

/-- A report on the fixes for a file. -/
def renderFixes (l : FixList) : Format → String
  | .text => Terminal.fixList l
  | .json => l.json.pretty

end SnippetAudit.Report
