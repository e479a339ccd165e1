import SnippetAudit.Text.Search
import SnippetAudit.Python.CasePattern
import SnippetAudit.Python.Tree

/-!
Statements of Python source.

A block may be missing or empty, and a line may be indented further than its block, but a
statement has to be complete. The words `print`, `exec`, `match` and `type` are names unless the
statement can only be read otherwise.

There are nodes for statements, clauses and blocks, for the names of an import, for the name and the colon of
a definition, and for a string literal that stands alone. Expressions hold no statements, so they have no
others, and neither have comments.
-/

namespace SnippetAudit.Python

/-- Where a text stops being Python: the statement that could not be read and the token in it at
which reading stopped, as the text from each on. -/
structure Fault where
  statement : List Char
  stuck : Stuck

/-- Attribute getting stuck to the statement that starts with the given text. -/
def faultIn {α : Type} (statement : List Char) : Except Stuck α → Except Fault α
  | .ok a => .ok a
  | .error stuck => .error ⟨statement, stuck⟩

/-- What is in front of a rest of the source. -/
def frontOf (source rest : List Char) : List Char := source.take (source.length - rest.length)

/-- A node that goes from one rest of the source up to another. -/
def nodeOf (source : List Char) (kind : String) (start behind : List Char) (children : List Node) : Node :=
  let front := frontOf source start
  .node {
    kind
    start := Text.byteLength front
    stop := Text.byteLength (frontOf source behind)
    row := front.count '\n'
    column := Text.byteLength (front.reverse.takeWhile (· ≠ '\n')) } children

/-- A token that the grammar writes out. -/
def tokenOf (source : List Char) (lexeme : String) (start behind : List Char) : Node :=
  match nodeOf source lexeme start behind [] with
  | .node label children => .node { label with named := false } children

/-- A node in a field of its parent. -/
def Node.within (field : String) : Node → Node
  | .node label children => .node { label with field := some field } children

/-- A simple statement without its range. -/
structure Draft where
  kind : String
  children : List Node := []

/-- What may follow an expression at the end of a simple statement. -/
def Around.onLine : Around := ⟨true, false, true⟩

/-- What the statement parsers need to know: the whole text and the parsers for expressions. -/
structure Source where
  text : List Char
  parsers : Nested

/-- The source with a given text. -/
def Source.ofText (text : List Char) : Source := ⟨text, nested (text.length + 1)⟩

namespace Source

variable (src : Source)

/-- A node of the source. -/
def node (kind : String) (start behind : List Char) (children : List Node) : Node :=
  nodeOf src.text kind start behind children

/-- An expression. -/
def expression (around : Around) (cur : Cursor) : Except Stuck (Form × Cursor) :=
  src.parsers.expression around cur

/-- A loop target. -/
def target (cur : Cursor) : Except Stuck (Form × Cursor) :=
  loopTarget src.parsers cur.fuel cur

/-- Whether a list of expressions that has just passed a comma ends here. -/
def listEnds (around : Around) (cur : Cursor) : Bool :=
  match cur.next { around.behind with quote := true } with
  | (.newline, _) => true
  | (.plain, found) =>
    match found.rest with
    | c :: _ =>
      c = ';' || c = ':' || c = '=' || (updateOperator? found.rest).isSome ||
        (afterWord? "from" found.rest).isSome
    | [] => true
  | _ => false

/-- Expressions parted by commas, with an optional last comma: the text behind the first if that is a string
literal, and whether all can be assigned to. -/
def expressionsWithin (around : Around) :
    Nat → Bool → Cursor → Except Stuck ((Option (List Char) × Bool) × Cursor)
  | 0, _, cur => .error cur.rest
  | fuel + 1, targets, cur => do
    let (form, cur) ← src.expression around cur
    let quoted := if form == .text then some cur.rest else none
    let targets := targets && form.isTarget
    match cur.onComma? around.behind with
    | none => .ok ((quoted, targets), cur)
    | some behind =>
      if listEnds around behind then .ok ((quoted, targets), behind)
      else
        let ((_, all), cur) ← expressionsWithin around fuel targets behind
        .ok ((quoted, all), cur)

/-- Expressions parted by commas, with an optional last comma. -/
def expressions (around : Around) (cur : Cursor) : Except Stuck ((Option (List Char) × Bool) × Cursor) :=
  src.expressionsWithin around cur.fuel true cur

/-- Expressions parted by commas, without a last comma. -/
def expressionRowWithin (around : Around) : Nat → Cursor → Except Stuck Cursor
  | 0, cur => .error cur.rest
  | fuel + 1, cur => do
    let (_, cur) ← src.expression around cur
    match cur.onComma? around.behind with
    | some cur => expressionRowWithin around fuel cur
    | none => .ok cur

/-- Expressions parted by commas, without a last comma. -/
def expressionRow (around : Around) (cur : Cursor) : Except Stuck Cursor :=
  src.expressionRowWithin around cur.fuel cur

/-- An expression statement or an assignment, and the text behind the first expression if that is a string
literal. What is assigned may be an assignment again. -/
def assignmentWithin : Nat → Cursor → Except Stuck (Option (List Char) × Cursor)
  | 0, cur => .error cur.rest
  | fuel + 1, cur =>
    match cur.onWord? { quote := true } "yield" with
    | some cur => do
      let (_, cur) ← yielding src.parsers .onLine cur
      .ok (none, cur)
    | none => do
      let ((quoted, targets), cur) ← src.expressions .onLine cur
      let want := Around.onLine.behind
      if !targets then .ok (quoted, cur)
      else match cur.onEquals? want with
        | some cur => do
          let (_, cur) ← assignmentWithin fuel cur
          .ok (none, cur)
        | none =>
          match cur.onColon? want with
          | some cur => do
            let (_, cur) ← typing src.parsers .onLine cur
            match cur.onEquals? want with
            | some cur => do
              let (_, cur) ← assignmentWithin fuel cur
              .ok (none, cur)
            | none => .ok (none, cur)
          | none =>
            match cur.plain? want with
            | some found =>
              match updateOperator? found.rest with
              | some rest => do
                let (_, cur) ← assignmentWithin fuel { found with rest }
                .ok (none, cur)
              | none => .ok (none, cur)
            | none => .ok (none, cur)

/-- An expression statement or an assignment. -/
def assignment (cur : Cursor) : Except Stuck (Draft × Cursor) := do
  let start := cur.rest
  let (quoted, cur) ← src.assignmentWithin cur.fuel cur
  .ok (⟨"expression_statement", (quoted.map fun behind => src.node "string" start behind []).toList⟩, cur)

/-! ### Imports -/

/-- A dotted name. -/
def dottedName (around : Around) (want : Expecting) (cur : Cursor) :
    Except Stuck (Node × Cursor) := do
  let found := cur.settle want
  let (_, cur) ← found.expectName want
  let cur ← dottedWithin around cur.fuel cur
  .ok (src.node "dotted_name" found.rest cur.rest [], cur)

/-- Imported names parted by commas, each perhaps renamed; the last may be followed by a comma. -/
def importListWithin (around : Around) (want : Expecting) :
    Nat → Cursor → Except Stuck (List Node × Cursor)
  | 0, cur => .error cur.rest
  | fuel + 1, cur => do
    let start := (cur.settle want).rest
    let (name, cur) ← src.dottedName around want cur
    let (name, cur) ← match cur.onWord? around.behind "as" with
      | some cur => do
        let (_, cur) ← cur.expectName {}
        .ok (src.node "aliased_import" start cur.rest [name.within "name"], cur)
      | none => .ok (name, cur)
    let name := name.within "name"
    match cur.onComma? around.behind with
    | none => .ok ([name], cur)
    | some behind =>
      let ends := match behind.next around.behind with
        | (.newline, _) => true
        | (.plain, found) => found.rest.head? = some ')' || found.rest.head? = some ';'
        | _ => false
      if ends then .ok ([name], behind)
      else
        let (names, cur) ← importListWithin around { close := around.close } fuel behind
        .ok (name :: names, cur)

/-- Imported names, in parentheses or not. -/
def importNames (cur : Cursor) : Except Stuck (List Node × Cursor) :=
  match cur.on? {} "(" with
  | some cur => do
    let (names, cur) ← src.importListWithin ⟨false, true, true⟩ {} cur.fuel cur
    let cur ← cur.expect { close := true } ")"
    .ok (names, cur)
  | none => src.importListWithin .onLine {} cur.fuel cur

/-- Behind the dots of a relative import. -/
def dotsWithin : Nat → Cursor → Cursor
  | 0, cur => cur
  | fuel + 1, cur =>
    match cur.on? {} "." with
    | some cur => dotsWithin fuel cur
    | none => cur

/-- An import behind `from`. Importing from `__future__` is a statement of its own. -/
def importFrom (cur : Cursor) : Except Stuck (Draft × Cursor) :=
  match cur.onWord? {} "__future__" with
  | some cur => do
    let cur ← cur.expectWord {} "import"
    let (names, cur) ← src.importNames cur
    .ok (⟨"future_import_statement", names⟩, cur)
  | none => do
    let behind := dotsWithin cur.fuel cur
    let relative := behind.rest.length < cur.rest.length
    let cur ← if relative && (behind.onWord? {} "import").isSome then .ok behind
      else do
        let (_, cur) ← src.dottedName .inside {} behind
        .ok cur
    let cur ← cur.expectWord {} "import"
    match cur.on? {} "*" with
    | some behind =>
      .ok (⟨"import_from_statement", [src.node "wildcard_import" (cur.upcoming {}) behind.rest []]⟩, behind)
    | none => do
      let (names, cur) ← src.importNames cur
      .ok (⟨"import_from_statement", names⟩, cur)

/-! ### Simple statements -/

/-- Names parted by commas. -/
def nameRowWithin : Nat → Cursor → Except Stuck Cursor
  | 0, cur => .error cur.rest
  | fuel + 1, cur => do
    let (_, cur) ← cur.expectName {}
    match cur.onComma? Around.onLine.behind with
    | some cur => nameRowWithin fuel cur
    | none => .ok cur

/-- Whether a simple statement ends here. -/
def statementEnds (cur : Cursor) : Bool :=
  match cur.next { newline := true } with
  | (.newline, _) => true
  | (.plain, found) => found.rest.head? = some ';'
  | _ => false

/-- Whether an operand that a keyword may do without is missing here. -/
def operandMissing (cur : Cursor) : Bool :=
  match cur.next { newline := true, quote := true } with
  | (.newline, _) => true
  | (.plain, found) => found.rest.head? = some ';'
  | _ => false

/-- The first of two readings of a statement that goes through to its end, else the second. -/
def readEither (first second : Except Stuck (Draft × Cursor)) : Except Stuck (Draft × Cursor) :=
  match first with
  | .ok (draft, cur) => if statementEnds cur then .ok (draft, cur) else second
  | .error _ => second

/-- A `print` statement behind its word: what to print, with an optional last comma, behind a file
in some cases. -/
def printStatement (cur : Cursor) : Except Stuck (Draft × Cursor) :=
  match cur.on? Around.onLine.behind ">>" with
  | some cur => do
    let (_, cur) ← src.expression .onLine cur
    match cur.onComma? Around.onLine.behind with
    | some behind =>
      if operandMissing behind then .ok (⟨"print_statement", []⟩, behind)
      else do
        let (_, cur) ← src.expressions .onLine behind
        .ok (⟨"print_statement", []⟩, cur)
    | none => .ok (⟨"print_statement", []⟩, cur)
  | none => do
    let (_, cur) ← src.expressions .onLine cur
    .ok (⟨"print_statement", []⟩, cur)

/-- An `exec` statement behind its word. -/
def execStatement (cur : Cursor) : Except Stuck (Draft × Cursor) := do
  let cur ← match cur.next { newline := true, quote := true } with
    | (.quote q body, found) => do
      let (_, cur) ← literal src.parsers.interpolation q (found.enter q body)
      .ok cur
    | _ => do
      let (_, cur) ← cur.expectName { newline := true }
      .ok cur
  match cur.onWord? Around.onLine.behind "in" with
  | some cur => do
    let cur ← src.expressionRow .onLine cur
    .ok (⟨"exec_statement", []⟩, cur)
  | none => .ok (⟨"exec_statement", []⟩, cur)

/-- A type alias behind its word. -/
def typeAlias (cur : Cursor) : Except Stuck (Draft × Cursor) := do
  let (_, cur) ← typing src.parsers .inside cur
  match cur.onEquals? {} with
  | some cur => do
    let (_, cur) ← typing src.parsers .onLine cur
    .ok (⟨"type_alias_statement", []⟩, cur)
  | none => cur.stuck {}

/-- A simple statement that starts with a word that is always a keyword. -/
def keywordStatement (w : String) (cur : Cursor) : Option (Except Stuck (Draft × Cursor)) :=
  let optional (cur : Cursor) : Except Stuck Cursor :=
    if operandMissing cur then .ok cur
    else do
      let (_, cur) ← src.expressions .onLine cur
      .ok cur
  let leaf (kind : String) (parsed : Except Stuck Cursor) : Option (Except Stuck (Draft × Cursor)) :=
    some (parsed.map fun cur => (⟨kind, []⟩, cur))
  if w == "import" then some do
    let (names, cur) ← src.importListWithin .onLine {} cur.fuel cur
    .ok (⟨"import_statement", names⟩, cur)
  else if w == "from" then some (src.importFrom cur)
  else if w == "assert" then leaf "assert_statement" (src.expressionRow .onLine cur)
  else if w == "return" then leaf "return_statement" (optional cur)
  else if w == "del" then leaf "delete_statement" do
    let (_, cur) ← src.expressions .onLine cur
    .ok cur
  else if w == "raise" then leaf "raise_statement" do
    let cur ← if (cur.onWord? { newline := true, quote := true } "from").isSome then .ok cur
      else optional cur
    match cur.onWord? Around.onLine.behind "from" with
    | some cur => do
      let (_, cur) ← src.expression .onLine cur
      .ok cur
    | none => .ok cur
  else if w == "pass" || w == "break" || w == "continue" then leaf (w ++ "_statement") (.ok cur)
  else if w == "global" || w == "nonlocal" then leaf (w ++ "_statement") (nameRowWithin cur.fuel cur)
  else none

/-- A simple statement; the cursor is at its first token. -/
def simpleStatement (cur : Cursor) : Except Stuck (Draft × Cursor) :=
  match word? cur.rest with
  | none => src.assignment cur
  | some (w, rest) =>
    let behind : Cursor := { cur with rest }
    match src.keywordStatement w behind with
    | some parsed => parsed
    | none =>
      if w == "print" then
        match behind.on? Around.onLine.behind ">>" with
        | some redirected =>
          if redirected.rest.head? = some '=' then src.assignment cur else src.printStatement behind
        | none => readEither (src.assignment cur) (src.printStatement behind)
      else if w == "exec" then readEither (src.execStatement behind) (src.assignment cur)
      else if w == "type" then readEither (src.typeAlias behind) (src.assignment cur)
      else src.assignment cur

/-- The simple statements of one line, up to its end; the cursor is at the first token. -/
def lineWithin : Nat → Cursor → Except Fault (List Node × Cursor)
  | 0, cur => .error ⟨cur.rest, cur.rest⟩
  | fuel + 1, cur => do
    let start := cur.rest
    let (draft, cur) ← faultIn start (src.simpleStatement cur)
    let leaf := src.node draft.kind start cur.rest draft.children
    match cur.next { newline := true } with
    | (.newline, cur) => .ok ([leaf], cur)
    | (.plain, found) =>
      match found.rest with
      | ';' :: rest =>
        let behind : Cursor := { found with rest }
        match behind.next { newline := true, quote := true } with
        | (.newline, cur) => .ok ([leaf], cur)
        | _ => do
          let (more, cur) ← lineWithin fuel (behind.settle { newline := true, quote := true })
          .ok (leaf :: more, cur)
      | _ => .error ⟨start, found.rest⟩
    | (_, found) => .error ⟨start, found.rest⟩

/-! ### Compound statements -/

/-- A parser for the block behind a colon. -/
abbrev Suite := Cursor → Except Fault (Node × Cursor)

/-- A clause behind its word: a condition if it has one, a colon and a block. -/
def clause (suite : Suite) (start : List Char) (conditional : Bool) (cur : Cursor) :
    Except Fault (Node × Cursor) := do
  let cur ← if conditional then do
      let (_, cur) ← faultIn start (src.expression .inside cur)
      .ok cur
    else .ok cur
  let cur ← faultIn start (cur.expect {} ":")
  suite cur

/-- The clauses that start with one of the given words, as often as each may occur: the word,
whether it takes a condition, and whether it may be repeated. -/
def clausesAfter (suite : Suite) :
    List (String × Bool × Bool) → Nat → Cursor → Except Fault (List Node × Cursor)
  | [], _, cur => .ok ([], cur)
  | _, 0, cur => .ok ([], cur)
  | (w, conditional, repeated) :: others, fuel + 1, cur =>
    let at' := cur.settle { dedent := true, quote := true }
    match cur.onWord? { dedent := true, quote := true } w with
    | none => clausesAfter suite others fuel cur
    | some behind => do
      let (block, ended) ← src.clause suite at'.rest conditional behind
      let (more, cur) ← clausesAfter suite
        (if repeated then (w, conditional, repeated) :: others else others) fuel ended
      .ok (src.node (w ++ "_clause") at'.rest ended.rest [block] :: more, cur)

/-- An optional `else` clause. -/
def elseClause (suite : Suite) (cur : Cursor) : Except Fault (List Node × Cursor) :=
  src.clausesAfter suite [("else", false, false)] 2 cur

/-- The exceptions that a clause handles, up to the colon. -/
def handledWithin : Nat → Cursor → Except Stuck Cursor
  | 0, cur => .error cur.rest
  | fuel + 1, cur => do
    let (_, cur) ← src.expression .inside cur
    match cur.onComma? {} with
    | some cur => handledWithin fuel cur
    | none => .ok cur

/-- The `except` clauses of a `try` statement. -/
def handlers (suite : Suite) : Nat → Cursor → Except Fault (List Node × Cursor)
  | 0, cur => .ok ([], cur)
  | fuel + 1, cur =>
    let at' := cur.settle { dedent := true, quote := true }
    match cur.onWord? { dedent := true, quote := true } "except" with
    | none => .ok ([], cur)
    | some behind => do
      let cur := (behind.on? { quote := true } "*").getD behind
      let cur ← if (cur.on? { quote := true } ":").isSome then .ok cur
        else faultIn at'.rest (src.handledWithin cur.fuel cur)
      let cur ← faultIn at'.rest (cur.expect {} ":")
      let (block, ended) ← suite cur
      let (more, cur) ← handlers suite fuel ended
      .ok (src.node "except_clause" at'.rest ended.rest [block] :: more, cur)

/-- Type parameters behind the opening bracket. -/
def typeParametersWithin : Nat → Cursor → Except Stuck Cursor
  | 0, cur => .error cur.rest
  | fuel + 1, cur => do
    let (_, cur) ← typing src.parsers .inBrackets cur
    match cur.onComma? { close := true } with
    | some behind =>
      match behind.on? { quote := true, close := true } "]" with
      | some cur => .ok cur
      | none => typeParametersWithin fuel (behind.settle { quote := true, close := true })
    | none => cur.expect { close := true } "]"

/-- Type parameters, if there are any. -/
def typeParameters (cur : Cursor) : Except Stuck Cursor :=
  match cur.on? {} "[" with
  | some cur => src.typeParametersWithin cur.fuel cur
  | none => .ok cur

/-- The name of a definition. -/
def definedName (cur : Cursor) : Except Stuck (Node × Cursor) := do
  let (_, behind) ← cur.expectName {}
  .ok ((src.node "identifier" (cur.upcoming {}) behind.rest []).within "name", behind)

/-- The signature of a function behind `def`, up to the colon, and its name. -/
def signature (cur : Cursor) : Except Stuck (Node × Cursor) := do
  let (name, cur) ← src.definedName cur
  let cur ← src.typeParameters cur
  let cur ← cur.expect {} "("
  let cur ← match cur.on? { close := true } ")" with
    | some cur => .ok cur
    | none => do
      let cur ← parametersWithin src.parsers src.target true .inBrackets ")" cur.fuel cur
      cur.expect { close := true } ")"
  match cur.on? {} "->" with
  | some cur =>
    match cur.on? { quote := true } "**" with
    | some cur => do
      let (_, cur) ← cur.expectName {}
      .ok (name, cur)
    | none => do
      let (_, cur) ← src.expression .inside cur
      .ok (name, cur)
  | none => .ok (name, cur)

/-- The head of a class behind `class`, up to the colon, and its name. -/
def classHead (cur : Cursor) : Except Stuck (Node × Cursor) := do
  let (name, cur) ← src.definedName cur
  let cur ← src.typeParameters cur
  match cur.on? {} "(" with
  | some cur => do
    let cur ← arguments src.parsers src.target cur
    .ok (name, cur)
  | none => .ok (name, cur)

/-- A definition whose head, read by `head`, follows. -/
def definition (suite : Suite) (start : List Char) (kind : String)
    (head : Cursor → Except Stuck (Node × Cursor)) (cur : Cursor) :
    Except Fault (Node × Cursor) := do
  let (name, ended) ← faultIn start (head cur)
  let behind ← faultIn start (ended.expect {} ":")
  let (block, cur) ← suite behind
  let colon := tokenOf src.text ":" (ended.upcoming {}) behind.rest
  .ok (src.node kind start cur.rest [name, colon, block.within "body"], cur)

/-- A definition, if one starts at the cursor. -/
def definition? (suite : Suite) (cur : Cursor) : Option (Except Fault (Node × Cursor)) :=
  match word? cur.rest with
  | none => none
  | some (w, rest) =>
    let behind : Cursor := { cur with rest }
    if w == "def" then some (src.definition suite cur.rest "function_definition" src.signature behind)
    else if w == "class" then some (src.definition suite cur.rest "class_definition" src.classHead behind)
    else if w == "async" then
      (behind.onWord? {} "def").map (src.definition suite cur.rest "function_definition" src.signature)
    else none

/-- Decorators and the definition they decorate; the cursor is behind an at sign. -/
def decorated (suite : Suite) (start : List Char) : Nat → Cursor → Except Fault (Node × Cursor)
  | 0, cur => .error ⟨start, cur.rest⟩
  | fuel + 1, cur => do
    let (_, cur) ← faultIn start (src.expression .onLine cur)
    match cur.next { newline := true } with
    | (.newline, cur) =>
      match cur.on? {} "@" with
      | some cur => decorated suite start fuel cur
      | none =>
        match cur.plain? {} with
        | none => faultIn start (cur.stuck {})
        | some found =>
          match src.definition? suite found with
          | some parsed => do
            let (d, cur) ← parsed
            .ok (src.node "decorated_definition" start cur.rest [d], cur)
          | none => .error ⟨start, found.rest⟩
    | (_, found) => .error ⟨start, found.rest⟩

/-- A `for` statement behind its word. -/
def forStatement (suite : Suite) (start : List Char) (cur : Cursor) :
    Except Fault (Node × Cursor) := do
  let cur ← faultIn start (targetsWithin src.target cur.fuel cur)
  let (_, cur) ← faultIn start (src.expressions .inside cur)
  let cur ← faultIn start (cur.expect {} ":")
  let (block, cur) ← suite cur
  let (more, cur) ← src.elseClause suite cur
  .ok (src.node "for_statement" start cur.rest (block :: more), cur)

/-- A `with` statement behind its word. -/
def withStatement (suite : Suite) (start : List Char) (cur : Cursor) :
    Except Fault (Node × Cursor) := do
  let (_, cur) ← faultIn start (src.expressions .inside cur)
  let cur ← faultIn start (cur.expect {} ":")
  let (block, cur) ← suite cur
  .ok (src.node "with_statement" start cur.rest [block], cur)

/-- Patterns of one `case` parted by commas, up to `if` or the colon. -/
def casePatternsWithin : Nat → Cursor → Except Stuck Cursor
  | 0, cur => .error cur.rest
  | fuel + 1, cur => do
    let cur ← casePattern src.parsers cur.fuel .inside cur
    match cur.onComma? {} with
    | some behind =>
      if (behind.on? { quote := true } ":").isSome || (behind.onWord? { quote := true } "if").isSome then
        .ok behind
      else casePatternsWithin fuel behind
    | none => .ok cur

/-- The `case` clauses of a block, up to its end. -/
def casesWithin (suite : Suite) : Nat → Cursor → Except Fault (List Node × Cursor)
  | 0, cur => .error ⟨cur.rest, cur.rest⟩
  | fuel + 1, cur =>
    match cur.next { dedent := true } with
    | (.dedent, cur) => .ok ([], cur)
    | (_, found) => do
      let start := found.rest
      let cur ← faultIn start (found.expectWord {} "case")
      let cur ← faultIn start (src.casePatternsWithin cur.fuel cur)
      let cur ← match cur.onWord? {} "if" with
        | some cur => do
          let (_, cur) ← faultIn start (src.expression .inside cur)
          .ok cur
        | none => .ok cur
      let cur ← faultIn start (cur.expect {} ":")
      let (block, ended) ← suite cur
      let (more, cur) ← casesWithin suite fuel ended
      .ok (src.node "case_clause" start ended.rest [block] :: more, cur)

/-- A `match` statement behind its word. -/
def matchStatement (suite : Suite) (start : List Char) (cur : Cursor) :
    Except Fault (Node × Cursor) := do
  let (_, cur) ← faultIn start (src.expressions .inside cur)
  let cur ← faultIn start (cur.expect {} ":")
  match cur.next { newline := true, indent := true } with
  | (.indent, cur) => do
    let (cases, ended) ← src.casesWithin suite cur.fuel cur
    let block := src.node "block" (cur.upcoming { dedent := true }) ended.rest cases
    .ok (src.node "match_statement" start ended.rest [block], ended)
  | (.newline, cur) =>
    .ok (src.node "match_statement" start cur.rest [src.node "block" cur.rest cur.rest []], cur)
  | (_, found) => .error ⟨start, found.rest⟩

/-- A compound statement, if one starts at the cursor. A `match` statement that cannot be read as
such is none. -/
def compound? (suite : Suite) (cur : Cursor) : Option (Except Fault (Node × Cursor)) :=
  let start := cur.rest
  match start with
  | '@' :: rest => some (src.decorated suite start cur.fuel { cur with rest })
  | _ =>
    match word? start with
    | none => none
    | some (w, rest) =>
      let behind : Cursor := { cur with rest }
      if w == "if" then some do
        let (block, cur) ← src.clause suite start true behind
        let (more, cur) ← src.clausesAfter suite [("elif", true, true), ("else", false, false)]
          (cur.fuel + 1) cur
        .ok (src.node "if_statement" start cur.rest (block :: more), cur)
      else if w == "while" then some do
        let (block, cur) ← src.clause suite start true behind
        let (more, cur) ← src.elseClause suite cur
        .ok (src.node "while_statement" start cur.rest (block :: more), cur)
      else if w == "try" then some do
        let (block, cur) ← src.clause suite start false behind
        let (caught, cur) ← src.handlers suite cur.fuel cur
        let (more, cur) ← src.clausesAfter suite [("else", false, false), ("finally", false, false)] 3 cur
        .ok (src.node "try_statement" start cur.rest (block :: caught ++ more), cur)
      else if w == "for" then some (src.forStatement suite start behind)
      else if w == "with" then some (src.withStatement suite start behind)
      else if w == "async" then
        match behind.onWord? {} "for" with
        | some cur => some (src.forStatement suite start cur)
        | none =>
          match behind.onWord? {} "with" with
          | some cur => some (src.withStatement suite start cur)
          | none => src.definition? suite cur
      else if w == "match" then
        match src.matchStatement suite start behind with
        | .ok parsed => some (.ok parsed)
        | .error _ => none
      else src.definition? suite cur

/-- A compound statement, or the simple statements of one line; the cursor is at the first
token. -/
def statement (suite : Suite) (cur : Cursor) : Except Fault (List Node × Cursor) :=
  match src.compound? suite cur with
  | some parsed => parsed.map fun (node, cur) => ([node], cur)
  | none => src.lineWithin cur.fuel cur

/-- Statements up to the end of the block. -/
def blockWithin (suite : Suite) : Nat → Cursor → Except Fault (List Node × Cursor)
  | 0, cur => .error ⟨cur.rest, cur.rest⟩
  | fuel + 1, cur =>
    match cur.next { dedent := true, quote := true } with
    | (.dedent, cur) => .ok ([], cur)
    | (_, found) => do
      let (first, cur) ← src.statement suite found
      let (others, cur) ← blockWithin suite fuel cur
      .ok (first ++ others, cur)

/-- What follows the colon of a compound statement, for nesting up to a given depth: an indented
block, nothing, or simple statements on the same line. -/
def suite : Nat → Suite
  | 0, cur => .error ⟨cur.rest, cur.rest⟩
  | depth + 1, cur =>
    match cur.next { newline := true, indent := true, quote := true } with
    | (.indent, cur) => do
      let (nodes, ended) ← src.blockWithin (suite depth) cur.fuel cur
      .ok (src.node "block" (cur.upcoming { dedent := true, quote := true }) ended.rest nodes, ended)
    | (.newline, cur) => .ok (src.node "block" cur.rest cur.rest [], cur)
    | (_, found) => do
      let (nodes, cur) ← src.lineWithin found.fuel found
      .ok (src.node "block" found.rest cur.rest nodes, cur)

/-- Statements up to the end of the text. -/
def moduleWithin : Nat → Cursor → Except Fault (List Node)
  | 0, cur => .error ⟨cur.rest, cur.rest⟩
  | fuel + 1, cur =>
    match cur.next { quote := true } with
    | (.plain, ⟨[], _, _, _⟩) => .ok []
    | (_, found) => do
      let (first, cur) ← src.statement (src.suite found.fuel) found
      let others ← moduleWithin fuel cur
      .ok (first ++ others)

/-- The syntax tree of the whole text. -/
def tree : Except Fault Node := do
  let start := Cursor.start src.text
  let nodes ← src.moduleWithin start.fuel start
  .ok (src.node "module" src.text [] nodes)

end Source

end SnippetAudit.Python
