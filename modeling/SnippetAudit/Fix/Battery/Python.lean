import SnippetAudit.Finding.Scan
import SnippetAudit.Fix.Basic
import SnippetAudit.Python.Module

/-!
The fixes that are proposed for Python, in their order. Those for imports and documentation need a
syntax tree, and are left out when there is none; the others look at lines only.
-/

namespace SnippetAudit.Fix.Battery

open Text Finding

/-- A proposal for one line, to be applied without being asked for. -/
def onLine (kind : Kind) (line : Nat) (title description before after : String) : Proposal :=
  { kind
    title
    description
    first := line
    last := line
    before
    after
    confidence := 1
    automatic := true }

/-- Replace every match on a line by `f` of its text. -/
def rewriteLine (m : Matcher) (f : List Char → List Char) (line : String) : String :=
  String.ofList (replace m f line.toList)

/-- Whether a matcher matches somewhere on a line. -/
def foundOn (m : Matcher) (line : String) : Bool := occurs m line.toList

/-- The line with a given number, from one. -/
def line? (ls : List String) (number : Nat) : Option String := ls[number - 1]?

/-! ### Fixes that need the syntax tree -/

/-- Remove an import whose name is on no other line. -/
def unusedImport (ls : List String) (b : Python.ImportBinding) : Option Proposal :=
  if ls.countP (contains b.name) = 1 then
    (line? ls b.line).map fun before =>
      { onLine .simple b.line ("Remove unused import '" ++ b.name ++ "'")
          ("Import '" ++ b.name ++ "' is not used in the code") before "" with
        confidence := 0.9 }
  else none

/-- The noun for a kind of definition. -/
def noun : Python.DefinitionKind → String
  | .function => "Function"
  | .classType => "Class"

/-- The text that is put in place of missing documentation. -/
def placeholder : Python.DefinitionKind → String
  | .function => "TODO: Add function description"
  | .classType => "TODO: Add class description"

/-- A line and below it, four columns further in, a string literal. -/
def withDocumentation (before text : String) : String :=
  let indent := byteLength (before.toList.takeWhile isBlank)
  before ++ "\n" ++ String.ofList (List.replicate (indent + 4) ' ') ++ "\"\"\"" ++ text ++ "\"\"\""

/-- Add documentation to a definition that has none. -/
def missingDocumentation (ls : List String) (d : Python.Definition) : Option Proposal :=
  if d.documented then none
  else (line? ls d.line).map fun before =>
    { onLine .style d.line ("Add docstring to " ++ d.name)
        (noun d.kind ++ " '" ++ d.name ++ "' is missing a docstring")
        before (withDocumentation before (placeholder d.kind)) with
      confidence := 0.8
      automatic := false }

/-! ### Fixes on one line -/

/-- Remove blanks at the end of a line. -/
def trailingBlanks (number : Nat) (line : String) : Option Proposal :=
  let trimmed := trimEnd line
  if trimmed = line then none
  else some (onLine .style number
    ("Remove trailing whitespace on line " ++ toString number)
    "Trailing whitespace should be removed" line trimmed)

/-- Compare with `None` by identity: first where it is on the right, then where it is on the left. -/
def compareByIdentity (line : String) : String :=
  rewriteLine noneOnLeft (fun _ => "None is".toList)
    (rewriteLine noneOnRight (fun _ => "is None".toList) line)

/-- Compare with `None` by identity. -/
def noneComparisonFix (number : Nat) (line : String) : Option Proposal :=
  if foundOn noneComparison line then
    some (onLine .style number
      ("Use 'is None' instead of '== None' on line " ++ toString number)
      "Use 'is' for None comparison instead of '=='" line (compareByIdentity line))
  else none

/-- Name an exception in every `except` without one. -/
def nameException (line : String) : String :=
  rewriteLine bareExcept (fun _ => "except Exception:".toList) line

/-- Name an exception in an `except` without one. -/
def bareExceptFix (number : Nat) (line : String) : Option Proposal :=
  if foundOn bareExcept line then
    some { onLine .refactor number ("Replace bare except on line " ++ toString number)
        "Bare except catches all exceptions including system exits" line (nameException line) with
      confidence := 0.9 }
  else none

/-- A call of `eval` that is no part of a longer name and no method, with the character in front of
it. -/
def plainEvalCall : Matcher := fun before s =>
  match before, evalCall before s with
  | none, some n => some n
  | _, _ =>
    match s with
    | c :: rest =>
      if isWordChar c || c = '.' then none else (evalCall (some c) rest).map (· + 1)
    | [] => none

/-- A match of `plainEvalCall` with a call that evaluates literals only. -/
def evaluateLiterals (found : List Char) : List Char :=
  let lead := found.takeWhile fun c => !isWordChar c
  lead ++ "ast.literal_".toList ++ found.drop lead.length

/-- Evaluate literals only. -/
def evalCallFix (number : Nat) (line : String) : Option Proposal :=
  if foundOn plainEvalCall line then
    some { onLine .security number
        ("Replace eval() with ast.literal_eval() on line " ++ toString number)
        "eval() executes arbitrary code; ast.literal_eval() only accepts literals"
        line (rewriteLine plainEvalCall evaluateLiterals line) with
      confidence := 0.6
      automatic := false }
  else none

/-! ### Loops that build a list -/

/-- What a reader answers at the first place of a text where it answers. -/
def firstAnswer {α : Type} (read : List Char → Option α) : List Char → Option α
  | [] => read []
  | c :: rest => (read (c :: rest)).or (firstAnswer read rest)

/-- Behind a fixed text. -/
def behind? (lead : String) (s : List Char) : Option (List Char) :=
  if lead.toList.isPrefixOf s then some (s.drop lead.toList.length) else none

/-- A word that is not empty, and the text behind it. -/
def word? (s : List Char) : Option (List Char × List Char) :=
  let w := s.takeWhile isWordChar
  if w.isEmpty then none else some (w, s.drop w.length)

/-- Behind at least one blank. -/
def behindBlanks? (s : List Char) : Option (List Char) :=
  match s with
  | c :: rest => if isBlank c then some (dropBlanks rest) else none
  | [] => none

/-- The text in front of the last `mark` of a text, if it is not empty. -/
def upToLast? (mark : Char) (s : List Char) : Option (List Char) :=
  match s.reverse.dropWhile (· ≠ mark) with
  | _ :: front => if front.isEmpty then none else some front.reverse
  | [] => none

/-- The variable and the source of a loop that starts here. Where only blanks stand between `in`
and the colon, the last of several is the source. -/
def loopHead? (s : List Char) : Option (List Char × List Char) := do
  let (variable', s) ← word? (← behindBlanks? (← behind? "for" s))
  let gap ← behind? "in" (← behindBlanks? s)
  let s ← behindBlanks? gap
  match upToLast? ':' s with
  | some source => some (variable', source)
  | none =>
    match gap.take (gap.length - s.length), s with
    | _ :: blank :: blanks, ':' :: _ => some (variable', [(blank :: blanks).getLast (by simp)])
    | _, _ => none

/-- The argument of an `append` that starts here. -/
def appended? (s : List Char) : Option (List Char) := (behind? ".append(" s).bind (upToLast? ')')

/-- The word whose `append` is called, if it starts here. -/
def appendTarget? (s : List Char) : Option (List Char) := do
  let (w, s) ← word? s
  let _ ← behind? ".append(" s
  some w

/-- Build a list by a comprehension in place of a loop, given two lines that follow one another. -/
def comprehensionFix (number : Nat) (head body : String) : Option Proposal := do
  if !(contains "for " head && contains " in " head && contains ".append(" body) then none
  else
    let (variable', source) ← firstAnswer loopHead? head.toList
    let element ← firstAnswer appended? body.toList
    let target := (firstAnswer appendTarget? body.toList).getD "result".toList
    let indent := head.toList.takeWhile isBlank
    some {
      kind := .performance
      title := "Use list comprehension on line " ++ toString number
      description := "List comprehension is more Pythonic and faster"
      first := number
      last := number + 1
      before := head ++ "\n" ++ body
      after := String.ofList (indent ++ target ++ " = [".toList ++ element ++ " for ".toList ++
        variable' ++ " in ".toList ++ source ++ "]".toList)
      confidence := 0.7
      automatic := false }

/-- The proposals for all pairs of neighbours but the last, from the line with a given number on. -/
def comprehensions (number : Nat) : List String → List Proposal
  | head :: body :: next :: rest =>
    (comprehensionFix number head body).toList ++ comprehensions (number + 1) (body :: next :: rest)
  | _ => []

/-! ### The battery -/

/-- What a rule proposes for the lines of a text, one after the other. -/
def eachLine (rule : Nat → String → Option Proposal) (code : String) : List Proposal :=
  (numberedLines code).filterMap fun (n, l) => rule n l

/-- The fixes for a Python text. -/
def python (read : Python.Reader) (code : String) : List Proposal :=
  let ls := lines code
  let m := read.outline code
  m.imports.filterMap (unusedImport ls) ++ eachLine trailingBlanks code ++
    m.definitions.filterMap (missingDocumentation ls) ++ eachLine noneComparisonFix code ++
    eachLine bareExceptFix code ++ comprehensions 1 ls ++ eachLine evalCallFix code

end SnippetAudit.Fix.Battery
