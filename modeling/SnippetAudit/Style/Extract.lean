import SnippetAudit.Language
import SnippetAudit.Python.Grammar
import SnippetAudit.Style.Patterns

/-!
Extracting the style of a snippet by counting.

Names are counted by matchers that start and end at word boundaries, so a match is always a whole
word. Where one of several classes has to be chosen, the first with the greatest count is.
-/

namespace SnippetAudit.Style

open Text

/-- The first value with the greatest count, if that is not zero. -/
def majority {α : Type} (counts : List (α × Nat)) : Option α :=
  (counts.foldl
    (fun best candidate =>
      if (best.map (·.2)).getD 0 < candidate.2 then some candidate else best)
    none).map (·.1)

/-! ### Names -/

/-- Whether a word can start behind the given character. -/
def wordStarts : Option Char → Bool
  | some c => !isWordChar c
  | none => true

/-- A word of `n` characters, if it ends in front of `rest`. -/
def wordEnds (n : Nat) (rest : List Char) : Option Nat :=
  match rest with
  | c :: _ => if isWordChar c then none else some n
  | [] => some n

/-- Lowercase letters or underscores. -/
def isSnakeChar (c : Char) : Bool := isLowerAscii c || c = '_'

/-- Words of lowercase letters with an underscore inside. -/
def snakeWord : Matcher := fun before s =>
  let lead := s.takeWhile isLowerAscii
  if wordStarts before && !lead.isEmpty then
    match s.drop lead.length with
    | '_' :: c :: rest =>
      let more := rest.takeWhile isSnakeChar
      if isSnakeChar c then wordEnds (lead.length + 2 + more.length) (rest.drop more.length) else none
    | _ => none
  else none

/-- Words that start with lowercase letters and go on with an uppercase one. -/
def camelWord : Matcher := fun before s =>
  let lead := s.takeWhile isLowerAscii
  if wordStarts before && !lead.isEmpty then
    match s.drop lead.length with
    | c :: rest =>
      let more := rest.takeWhile isAsciiLetter
      if isUpperAscii c then wordEnds (lead.length + 1 + more.length) (rest.drop more.length) else none
    | [] => none
  else none

/-- Words that start with an uppercase letter, lowercase ones and another uppercase one. -/
def pascalWord : Matcher := fun before s =>
  match s with
  | first :: behind =>
    let lead := behind.takeWhile isLowerAscii
    if wordStarts before && isUpperAscii first && !lead.isEmpty then
      match behind.drop lead.length with
      | c :: rest =>
        let more := rest.takeWhile isAsciiLetter
        if isUpperAscii c then wordEnds (lead.length + 2 + more.length) (rest.drop more.length) else none
      | [] => none
    else none
  | [] => none

/-- The prevailing shape of names in a text. -/
def naming (code : String) : Naming :=
  let s := code.toList
  (majority [
    (Naming.snakeCase, countMatches snakeWord s),
    (Naming.camelCase, countMatches camelWord s),
    (Naming.pascalCase, countMatches pascalWord s)]).getD .mixed

/-! ### Indentation and lines -/

/-- Number of lines that start with a tab. -/
def tabLines (ls : List String) : Nat := ls.countP fun line => line.toList.head? = some '\t'

/-- Numbers of leading blanks of the lines that start with a space. -/
def spaceWidths (ls : List String) : List Nat :=
  ls.filterMap fun line =>
    let cs := line.toList
    if cs.head? = some ' ' then some (cs.takeWhile isBlank).length else none

/-- The greatest common divisor of two numbers, found by division with remainder. -/
def commonDivisor (a b : Nat) : Nat :=
  if b = 0 then a else commonDivisor b (a % b)
termination_by b
decreasing_by exact Nat.mod_lt a (by omega)

/-- The greatest common divisor of the widths that are not zero, or four where there are none. -/
def unitOf (widths : List Nat) : Nat :=
  match widths.filter (0 < ·) with
  | w :: rest => rest.foldl commonDivisor w
  | [] => 4

/-- The unit of indentation: tabs if more lines start with them, and otherwise the greatest common
divisor of the widths. -/
def indentation (ls : List String) : Indentation :=
  let tabs := tabLines ls
  let widths := spaceWidths ls
  if tabs = 0 && widths.isEmpty then {}
  else if widths.length < tabs then { kind := .tabs, size := 1 }
  else { kind := .spaces, size := unitOf widths }

/-- The mean number of characters of the lines that are not blank, rounded down, or zero. -/
def lineLength (ls : List String) : Nat :=
  let lengths := (ls.filter fun line => !(dropBlanks line.toList).isEmpty).map (·.toList.length)
  lengths.foldr (· + ·) 0 / lengths.length

/-! ### Quotes -/

/-- A mark, any other characters and the same mark. -/
def quotedBy (mark : Char) : Matcher := fun _ s =>
  match s with
  | c :: rest =>
    if c = mark then
      let inner := rest.takeWhile (· ≠ mark)
      if (rest.drop inner.length).isEmpty then none else some (inner.length + 2)
    else none
  | [] => none

/-- The prevailing quotation marks in a text. -/
def quotes (code : String) : Quotes :=
  let single := countMatches (quotedBy '\'') code.toList
  let double := countMatches (quotedBy '"') code.toList
  if double < single then .single else if single < double then .double else .mixed

/-! ### Comments -/

/-- The class of a line whose comment starts with the given mark. -/
def placement (mark line : String) : Comments :=
  let cs := line.toList
  let before := match starts (Text.literal mark.toList) cs with
    | p :: _ => cs.take p
    | [] => cs
  if (dropBlanks before).isEmpty then .above else .inline

/-- The class of a line of Python, if it has a comment. -/
def pythonComment (line : String) : Option Comments :=
  if contains "\"\"\"" line || contains "'''" line then some .docstring
  else if contains "#" line then some (placement "#" line)
  else none

/-- The class of a line of JavaScript, if it has a comment. -/
def scriptComment (line : String) : Option Comments :=
  if contains "//" line then some (placement "//" line)
  else if contains "/*" line then some .docstring
  else none

/-- Where comments stand in a text, given the class of a line. -/
def comments (classify : String → Option Comments) (ls : List String) : Comments :=
  let found := ls.filterMap classify
  (majority [
    (Comments.above, found.count .above),
    (Comments.inline, found.count .inline),
    (Comments.docstring, found.count .docstring)]).getD .mixed

/-! ### Imports -/

/-- The sum of the distances between neighbours of an ascending list. -/
def totalGap : List Nat → Nat
  | a :: b :: rest => (b - a) + totalGap (b :: rest)
  | _ => 0

/-- How imports on the given lines, in ascending order, are laid out: grouped if the mean distance
between neighbours is at most two. -/
def importLayout (ls : List Nat) : Imports :=
  match ls with
  | [] => .none
  | [_] => .single
  | _ => if totalGap ls ≤ 2 * (ls.length - 1) then .grouped else .scattered

section Reader

variable (read : Python.Reader)

/-- How the imports of a Python module are laid out, where Python is read by `read`. -/
def pythonImportsBy (code : String) : Imports :=
  match read.parse code with
  | .ok m => importLayout m.importLines
  | .error _ => .unknown

/-! ### Everything -/

/-- The style of a snippet; Python is read by `read`. -/
def extractBy (code : String) (language : Language) : Patterns :=
  let ls := lines code
  { naming := match language with
      | .python | .javascript | .typescript => naming code
      | .java | .cpp => .unknown
    indentation := indentation ls
    quotes := quotes code
    lineLength := lineLength ls
    comments := match language with
      | .python => comments pythonComment ls
      | .javascript | .typescript => comments scriptComment ls
      | .java | .cpp => .unknown
    imports := match language with
      | .python => pythonImportsBy read code
      | .javascript | .typescript => .es6
      | .java | .cpp => .unknown }

end Reader

/-- The style of a snippet. -/
def extract : String → Language → Patterns := extractBy Python.readTree

end SnippetAudit.Style
