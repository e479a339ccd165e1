import SnippetAudit.Python.Expression

/-!
Patterns of `case` clauses.
-/

namespace SnippetAudit.Python

/-- Behind a number with an optional sign, and perhaps a second one added to it. -/
def numberPattern (around : Around) (cur : Cursor) : Except Stuck Cursor := do
  let start := (cur.on? {} "-").getD cur
  let digits (cur : Cursor) : Option Cursor := do
    let found ← cur.plain? {}
    let rest ← number? found.rest
    some { found with rest }
  match digits start with
  | none => start.stuck {}
  | some cur =>
    match (cur.on? around.behind "+").orElse fun _ => cur.on? around.behind "-" with
    | none => .ok cur
    | some behind =>
      match digits behind with
      | some cur => .ok cur
      | none => behind.stuck {}

/-- Behind a dotted name whose first part was just passed. -/
def dottedWithin (around : Around) : Nat → Cursor → Except Stuck Cursor
  | 0, cur => .error cur.rest
  | fuel + 1, cur =>
    match cur.on? around.behind "." with
    | none => .ok cur
    | some cur => do
      let (_, cur) ← cur.expectName {}
      dottedWithin around fuel cur

/-- Patterns parted by commas up to a closing bracket. -/
def patternsWithin (pattern : Cursor → Except Stuck Cursor) (closer : String) :
    Nat → Cursor → Except Stuck Cursor
  | 0, cur => .error cur.rest
  | fuel + 1, cur =>
    match cur.on? { quote := true, close := true } closer with
    | some cur => .ok cur
    | none => do
      let cur ← pattern (cur.settle { quote := true, close := true })
      match cur.onComma? { close := true } with
      | some cur => patternsWithin pattern closer fuel cur
      | none => cur.expect { close := true } closer

/-- The part of a pattern between two bars: `nestedPattern` reads the patterns inside brackets and
`simple` the keys of a mapping and the value of a keyword. -/
def patternPart (P : Nested) (nestedPattern simple : Cursor → Except Stuck Cursor)
    (around : Around) (cur : Cursor) : Except Stuck Cursor :=
  match cur.next { quote := true } with
  | (.quote q body, found) => do
    let (_, cur) ← literals P around found.fuel q (found.enter q body)
    .ok cur
  | (.plain, found) =>
    match found.rest with
    | '(' :: rest => patternsWithin nestedPattern ")" found.fuel { found with rest }
    | '[' :: rest => patternsWithin nestedPattern "]" found.fuel { found with rest }
    | '{' :: rest =>
      let item (cur : Cursor) : Except Stuck Cursor :=
        if (cur.on? { quote := true } "*").isSome then simple cur
        else do
          let cur ← simple cur
          let cur ← cur.expect {} ":"
          nestedPattern cur
      patternsWithin item "\x7d" found.fuel { found with rest }
    | '*' :: '*' :: rest => do
      let (_, cur) ← Cursor.expectName {} { found with rest }
      .ok cur
    | '*' :: rest => do
      let (_, cur) ← Cursor.expectName {} { found with rest }
      .ok cur
    | '-' :: _ => numberPattern around found
    | s =>
      if (number? s).isSome then numberPattern around found
      else match word? s with
        | none => .error s
        | some (w, rest) =>
          let behind : Cursor := { found with rest }
          if w == "True" || w == "False" || w == "None" then .ok behind
          else if reservedWords.contains w then .error s
          else do
            let cur ← dottedWithin around behind.fuel behind
            match cur.on? around.behind "(" with
            | some cur => patternsWithin nestedPattern ")" cur.fuel cur
            | none =>
              match behind.onEquals? around.behind with
              | some cur => simple cur
              | none => .ok cur
  | (_, found) => .error found.rest

/-- A pattern for nesting up to a given depth: parts joined by bars, and perhaps a name for it. -/
def casePattern (P : Nested) : Nat → Around → Cursor → Except Stuck Cursor
  | 0, _, cur => .error cur.rest
  | depth + 1, around, cur => do
    let part := patternPart P (casePattern P depth .inBrackets) (casePattern P depth around) around
    let cur ← part cur
    let rec bars : Nat → Cursor → Except Stuck Cursor
      | 0, cur => .error cur.rest
      | fuel + 1, cur =>
        match cur.on? around.behind "|" with
        | some cur => do
          let cur ← part cur
          bars fuel cur
        | none => .ok cur
    let cur ← bars cur.fuel cur
    match cur.onWord? around.behind "as" with
    | some cur => do
      let (_, cur) ← cur.expectName {}
      .ok cur
    | none => .ok cur

end SnippetAudit.Python
