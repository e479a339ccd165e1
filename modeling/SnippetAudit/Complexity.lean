import SnippetAudit.Text.Lines
import SnippetAudit.Text.Search
import SnippetAudit.Json.Record

/-!
Counts that stand for the complexity of a snippet.

Every count but the cyclomatic complexity is a number of lines or of occurrences of fixed fragments,
and no fragment holds a newline, so these counts add up over lines.
-/

namespace SnippetAudit

/-- Named counts, in ascending order of their names. -/
structure Metrics where
  entries : List (String × Nat)
  ascending : entries.Pairwise (·.1 < ·.1)

namespace Metrics

/-- No counts. -/
def empty : Metrics := ⟨[], .nil⟩

/-- Entries with one count put in its place; a count of the same name is replaced. -/
def putIn (name : String) (n : Nat) : List (String × Nat) → List (String × Nat)
  | [] => [(name, n)]
  | (other, m) :: rest =>
    if name < other then (name, n) :: (other, m) :: rest
    else if name = other then (name, n) :: rest
    else (other, m) :: putIn name n rest

theorem mem_putIn {name : String} {n : Nat} {e : String × Nat} {entries : List (String × Nat)}
    (h : e ∈ putIn name n entries) : e = (name, n) ∨ e ∈ entries := by
  induction entries with
  | nil => simp_all [putIn]
  | cons first rest ih =>
    obtain ⟨other, m⟩ := first
    simp only [putIn] at h
    split at h
    · simpa using h
    · split at h
      · rcases List.mem_cons.1 h with h | h
        · exact .inl h
        · exact .inr (List.mem_cons_of_mem _ h)
      · rcases List.mem_cons.1 h with h | h
        · exact .inr (h ▸ List.mem_cons_self)
        · exact (ih h).imp_right (List.mem_cons_of_mem _)

theorem ascending_putIn {name : String} {n : Nat} {entries : List (String × Nat)}
    (h : entries.Pairwise (·.1 < ·.1)) : (putIn name n entries).Pairwise (·.1 < ·.1) := by
  induction entries with
  | nil => simp [putIn]
  | cons first rest ih =>
    obtain ⟨other, m⟩ := first
    have ⟨below, sorted⟩ := List.pairwise_cons.1 h
    simp only [putIn]
    split
    · next less =>
      refine List.pairwise_cons.2 ⟨fun e he => ?_, h⟩
      rcases List.mem_cons.1 he with rfl | he
      · exact less
      · exact String.lt_trans less (below e he)
    · next notLess =>
      split
      · next same => exact List.pairwise_cons.2 ⟨fun e he => same ▸ below e he, sorted⟩
      · next different =>
        refine List.pairwise_cons.2 ⟨fun e he => ?_, ih sorted⟩
        rcases mem_putIn he with rfl | he
        · exact Std.lt_of_le_of_ne (String.not_lt.1 notLess) (Ne.symm different)
        · exact below e he

/-- Set a count. -/
def set (m : Metrics) (name : String) (n : Nat) : Metrics :=
  ⟨putIn name n m.entries, ascending_putIn m.ascending⟩

/-- The given counts; of several with one name the last is kept. -/
def ofList (entries : List (String × Nat)) : Metrics :=
  entries.foldl (fun m e => m.set e.1 e.2) empty

/-- A count, if it is there. -/
def get? (m : Metrics) (name : String) : Option Nat := m.entries.lookup name

instance : Json.Coded Metrics where
  encode m := .object (m.entries.map fun (name, n) => (name, .int n))
  decode
    | .object members => do
      let counts ← Json.decodeAll (members.map (·.2))
      some (ofList ((members.map (·.1)).zip counts))
    | _ => none

end Metrics

namespace Complexity

/-- Number of lines. -/
def lineCount (code : String) : Nat := (Text.lines code).length

/-- Number of lines that are neither blank nor start with a comment. -/
def codeLineCount (comment code : String) : Nat :=
  (Text.lines code).countP fun line =>
    let line := Text.dropEndBlanks (Text.dropBlanks line.toList)
    !line.isEmpty && !comment.toList.isPrefixOf line

/-- Number of occurrences of some fragments. -/
def occurrences (fragments : List String) (code : String) : Nat :=
  fragments.foldr (fun fragment n => Text.count fragment code + n) 0

/-- Which fragments are counted for a language. -/
structure Fragments where
  comment : String
  functions : List String
  imports : List String
  conditionals : List String
  loops : List String

/-- The fragments of Python. -/
def Fragments.python : Fragments :=
  { comment := "#"
    functions := ["def "]
    imports := ["import "]
    conditionals := ["if ", "elif "]
    loops := ["for ", "while "] }

/-- The fragments of JavaScript and TypeScript. -/
def Fragments.script : Fragments :=
  { comment := "//"
    functions := ["function ", "=>", "async "]
    imports := ["import ", "require("]
    conditionals := ["if ", "else if", "switch", "case "]
    loops := ["for ", "while ", ".map(", ".forEach(", ".filter("] }

/-- The counts for a snippet. -/
def measure (f : Fragments) (code : String) : Metrics :=
  let conditionals := occurrences f.conditionals code
  let loops := occurrences f.loops code
  .ofList [
    ("total_lines", lineCount code),
    ("code_lines", codeLineCount f.comment code),
    ("num_functions", occurrences f.functions code),
    ("num_classes", Text.count "class " code),
    ("num_imports", occurrences f.imports code),
    ("cyclomatic_complexity", 1 + conditionals + loops),
    ("num_conditionals", conditionals),
    ("num_loops", loops)]

/-- The counts for a Python snippet. -/
def ofPython (code : String) : Metrics := measure .python code

/-- Fragments that make a snippet TypeScript. -/
def typescriptMarks : List String :=
  ["interface ", "type ", ": string", ": number", ": boolean", "<T>", "as ", "enum "]

/-- Whether a snippet in the family of JavaScript is TypeScript. -/
def isTypescript (code : String) : Bool := typescriptMarks.any (Text.contains · code)

/-- The counts for a JavaScript snippet, with two more for TypeScript. -/
def ofScript (code : String) : Metrics :=
  let m := measure .script code
  if isTypescript code then
    (m.set "num_interfaces" (Text.count "interface " code)).set "num_types" (Text.count "type " code)
  else m

end Complexity

end SnippetAudit
