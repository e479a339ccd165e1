import SnippetAudit.Fix.Battery.Python

/-!
The fixes that are proposed for JavaScript and TypeScript, in their order.
-/

namespace SnippetAudit.Fix.Battery

open Text Finding

/-- Compare strictly where a line compares loosely. -/
def compareStrictly (line : String) : String := rewriteLine looseEquality (fun _ => "===".toList) line

/-- Compare strictly. -/
def looseEqualityFix (number : Nat) (line : String) : Option Proposal :=
  if foundOn looseEquality line then
    some (onLine .style number ("Use strict equality (===) on line " ++ toString number)
      "Use === instead of == for strict equality" line (compareStrictly line))
  else none

/-- The word `var`. -/
def varWord : Matcher := fun before s =>
  let inWord := match before with
    | some c => isWordChar c
    | none => false
  match s with
  | 'v' :: 'a' :: 'r' :: rest =>
    if inWord || (match rest with | c :: _ => isWordChar c | [] => false) then none else some 3
  | _ => none

/-- Declare a constant. -/
def varWordFix (number : Nat) (line : String) : Option Proposal :=
  if foundOn varWord line then
    some { onLine .style number ("Replace 'var' with 'const' on line " ++ toString number)
        "Use const or let instead of var for block scoping"
        line (rewriteLine varWord (fun _ => "const".toList) line) with
      confidence := 0.8
      automatic := false }
  else none

/-- Assign text in place of markup. -/
def innerHtmlFix (number : Nat) (line : String) : Option Proposal :=
  if foundOn innerHtmlAssignment line then
    some { onLine .security number
        ("Use textContent instead of innerHTML on line " ++ toString number)
        "Assigning to innerHTML parses the value as markup and can lead to XSS"
        line
        (rewriteLine innerHtmlAssignment
          (fun found => "textContent".toList ++ found.drop "innerHTML".toList.length) line) with
      confidence := 0.7
      automatic := false }
  else none

/-- The fixes for a text in JavaScript or TypeScript. -/
def script (code : String) : List Proposal :=
  eachLine looseEqualityFix code ++ eachLine varWordFix code ++ eachLine innerHtmlFix code

end SnippetAudit.Fix.Battery
